import ScimQuery.CommandLine
import ScimQuery.Proofs.Outcome
import ScimQuery.Proofs.PageRows

/-!
# Written command lines

A command line can be written in many ways: an option's value in the same word or in the next one, the
options in any order, some of them in front of the command. Any values can be written
(`Given.exists_written`), and `command_words_read` says that however they are written they are read
again, with the environment's values for what is absent.
-/

namespace ScimQuery.CommandLine

/-! ### Values as texts -/

/-- Digits that spell a number, maybe behind a plus. Zeros in front do not count. -/
def SpellsNumber (text : String) (n : UInt64) : Prop :=
  ∃ digits : List Char, (text.toList = digits ∨ text.toList = '+' :: digits) ∧ digits ≠ [] ∧
    (∀ c ∈ digits, c.isDigit = true) ∧
    Decimal.ofDigits (digits.map Decimal.digitValue) = n.toNat

theorem spellsNumber_toString (n : UInt64) : SpellsNumber (toString n.toNat) n := by
  refine ⟨Nat.toDigits 10 n.toNat, .inl ?_, Nat.toDigits_ne_nil, Json.isDigit_of_mem_toDigits,
    Json.ofDigits_toDigits _⟩
  exact Nat.toList_repr

theorem readNumber_of_spells {text : String} {n : UInt64} (spelled : SpellsNumber text n) :
    readNumber text = .ok n := by
  obtain ⟨digits, form, filled, decimal, number⟩ := spelled
  have natural : Decimal.natural? digits = some n.toNat := by
    rw [Decimal.natural?, List.isEmpty_eq_false_iff.mpr filled, List.all_eq_true.mpr decimal, number]
    rfl
  have read : ((Decimal.natural? digits).bind fun m =>
      if m < UInt64.size then some m.toUInt64 else none) = some n := by
    rw [natural, Option.bind_some, if_pos n.toNat_lt]
    simp
  have unsigned : Decimal.uint64? text = some n := by
    unfold Decimal.uint64?
    rcases form with same | same
    · rw [same]
      split
      · exact absurd (decimal '+' List.mem_cons_self) (by decide)
      · exact read
    · rw [same]
      exact read
  rw [readNumber, unsigned]

theorem readDirection_of_spells {text : String} {d : Direction}
    (spelled : text.map Char.toLower = d.name) : readDirection text = .ok d := by
  rw [readDirection, Direction.parse, spelled]
  cases d <;> rfl

theorem readPath_of_ne {text : String} (filled : text ≠ "") : readPath text = .ok text := by
  simp [readPath, filled]

namespace Given

/-- The text stands for the value of the option. Paths are not empty, and the case of letters does
not count in a direction. -/
def Spells (g : Given) (option : OptionName) (text : String) : Prop :=
  match option with
  | .config => g.config = some text ∧ text ≠ ""
  | .defaultCount => ∃ n, g.defaultCount = some n ∧ SpellsNumber text n
  | .resource => g.resource = some text
  | .filterFile => g.filterFile = some text ∧ text ≠ ""
  | .startIndex => ∃ n, g.startIndex = some n ∧ SpellsNumber text n
  | .count => ∃ n, g.count = some n ∧ SpellsNumber text n
  | .orderBy => g.orderBy = some text
  | .orderDirection => ∃ d, g.orderDirection = some d ∧ text.map Char.toLower = d.name
  | .requestId => g.requestId = some text

/-- Takes the value of one option from other values. -/
def copy (g other : Given) : OptionName → Given
  | .config => { g with config := other.config }
  | .defaultCount => { g with defaultCount := other.defaultCount }
  | .resource => { g with resource := other.resource }
  | .filterFile => { g with filterFile := other.filterFile }
  | .startIndex => { g with startIndex := other.startIndex }
  | .count => { g with count := other.count }
  | .orderBy => { g with orderBy := other.orderBy }
  | .orderDirection => { g with orderDirection := other.orderDirection }
  | .requestId => { g with requestId := other.requestId }

/-- The values of some options only. -/
def only (g : Given) (options : List OptionName) : Given where
  config := if .config ∈ options then g.config else none
  defaultCount := if .defaultCount ∈ options then g.defaultCount else none
  resource := if .resource ∈ options then g.resource else none
  filterFile := if .filterFile ∈ options then g.filterFile else none
  startIndex := if .startIndex ∈ options then g.startIndex else none
  count := if .count ∈ options then g.count else none
  orderBy := if .orderBy ∈ options then g.orderBy else none
  orderDirection := if .orderDirection ∈ options then g.orderDirection else none
  requestId := if .requestId ∈ options then g.requestId else none

variable {g other : Given} {option : OptionName} {options : List OptionName} {text : String}

theorem once_none {read : Except UsageError α} {a : α} (ok : read = .ok a) {slot : Option α}
    (empty : slot = none) : once slot read = .ok (some a) := by
  rw [once, empty, ok]
  rfl

/-- A text that stands for a value of an absent option gives this value. -/
theorem give_of_spells (absent : g.has option = false) (spelled : other.Spells option text) :
    g.give option text = .ok (g.copy other option) := by
  cases option <;> simp only [has, Option.isSome_eq_false_iff, Option.isNone_iff_eq_none] at absent
  case config =>
    obtain ⟨value, filled⟩ := spelled
    simp only [give, copy, once_none (readPath_of_ne filled) absent, value]
    rfl
  case defaultCount | startIndex | count =>
    obtain ⟨n, value, number⟩ := spelled
    simp only [give, copy, once_none (readNumber_of_spells number) absent, value]
    rfl
  case orderDirection =>
    obtain ⟨d, value, direction⟩ := spelled
    simp only [give, copy, once_none (readDirection_of_spells direction) absent, value]
    rfl
  case filterFile =>
    obtain ⟨value, filled⟩ := spelled
    simp only [give, copy, once_none (readPath_of_ne filled) absent, value]
    rfl
  case resource | orderBy | requestId =>
    have value : _ = some text := spelled
    simp only [give, copy, once_none rfl absent, value]
    rfl

theorem has_only (absent : option ∉ options) : (g.only options).has option = false := by
  cases option <;> simp [has, only, absent]

theorem copy_only : (g.only options).copy g option = g.only (option :: options) := by
  cases option <;> simp [copy, only]

theorem only_nil : g.only [] = {} := by
  simp [only]

theorem kept_eq {kept : Prop} [Decidable kept] {slot : Option α} (all : slot.isSome = true → kept) :
    (if kept then slot else none) = slot := by
  cases slot with
  | none => simp
  | some a => rw [if_pos (all rfl)]

/-- Options that are absent anyway do not matter. -/
theorem only_eq_self (all : ∀ option, g.has option = true → option ∈ options) :
    g.only options = g := by
  cases g
  simp only [only, Given.mk.injEq]
  exact ⟨kept_eq (all .config), kept_eq (all .defaultCount), kept_eq (all .resource),
    kept_eq (all .filterFile), kept_eq (all .startIndex), kept_eq (all .count),
    kept_eq (all .orderBy), kept_eq (all .orderDirection), kept_eq (all .requestId)⟩

end Given

/-! ### Options as words -/

/-- An option with a text for its value, which stands in the same word or in a word of its own. -/
structure WrittenOption where
  option : OptionName
  text : String
  apart : Bool := false

def WrittenOption.words (w : WrittenOption) : List String :=
  if w.apart then ["--" ++ w.option.long, w.text]
  else ["--" ++ w.option.long ++ "=" ++ w.text]

/-- Each value is written once, in any order, and nothing else is. No value in a word of its own
starts with a dash. -/
structure Given.Written (g : Given) (ws : List WrittenOption) : Prop where
  once : (ws.map (·.option)).Nodup
  spelled : ∀ w ∈ ws, g.Spells w.option w.text
  complete : ∀ option, g.has option = true → option ∈ ws.map (·.option)
  plain : ∀ w ∈ ws, w.apart = true → w.text.toList.head? ≠ some '-'

theorem OptionName.long_chars (option : OptionName) :
    ∃ c cs, option.long.toList = c :: cs ∧ ∀ d ∈ c :: cs, decide (d ≠ '=') = true := by
  cases option <;> exact ⟨_, _, rfl, List.all_eq_true.mp (by decide)⟩

theorem Word.ofString_name (option : OptionName) :
    Word.ofString ("--" ++ option.long) = .long option.long none := by
  obtain ⟨c, cs, name, plain⟩ := option.long_chars
  have letters : ("--" ++ option.long).toList = '-' :: '-' :: c :: cs := by simp [name]
  rw [Word.ofString, letters]
  show Word.ofLong (c :: cs) = _
  rw [Word.ofLong, List.takeWhile_eq_self_iff.mpr plain, List.dropWhile_eq_nil_iff.mpr plain, ← name,
    String.ofList_toList]

theorem Word.ofString_joined (option : OptionName) (text : String) :
    Word.ofString ("--" ++ option.long ++ "=" ++ text) = .long option.long (some text) := by
  obtain ⟨c, cs, name, plain⟩ := option.long_chars
  have letters : ("--" ++ option.long ++ "=" ++ text).toList =
      '-' :: '-' :: c :: (cs ++ '=' :: text.toList) := by simp [name]
  rw [Word.ofString, letters]
  show Word.ofLong (c :: cs ++ '=' :: text.toList) = _
  rw [Word.ofLong, List.takeWhile_append_of_pos plain, List.dropWhile_append_of_pos plain]
  simp [← name]

theorem Word.ofString_plain {text : String} (plain : text.toList.head? ≠ some '-') :
    Word.ofString text = .plain text := by
  unfold Word.ofString
  split
  · next dashes => simp [dashes] at plain
  · next dashes => simp [dashes] at plain
  · next dash => simp [dash] at plain
  · rfl

theorem Level.find?_long {level : Level} {option : OptionName} (member : option ∈ level.options) :
    level.options.find? (·.long = option.long) = some option := by
  cases level <;> revert member <;> cases option <;> decide

/-! ### Words for any values -/

namespace Given

variable {g : Given} {option : OptionName} {text : String}

/-- A text that stands for the value of an option. -/
def text? (g : Given) : OptionName → Option String
  | .config => g.config
  | .defaultCount => g.defaultCount.map fun n => toString n.toNat
  | .resource => g.resource
  | .filterFile => g.filterFile
  | .startIndex => g.startIndex.map fun n => toString n.toNat
  | .count => g.count.map fun n => toString n.toNat
  | .orderBy => g.orderBy
  | .orderDirection => g.orderDirection.map Direction.name
  | .requestId => g.requestId

theorem exists_text (present : g.has option = true) : ∃ text, g.text? option = some text := by
  rw [← Option.isSome_iff_exists]
  cases option <;> simpa [text?, has] using present

/-- No path is empty. -/
def PathsFilled (g : Given) : Prop :=
  g.config ≠ some "" ∧ g.filterFile ≠ some ""

theorem spells_of_text? (filled : g.PathsFilled) (written : g.text? option = some text) :
    g.Spells option text := by
  cases option
  case config => exact ⟨written, fun empty => filled.1 (empty ▸ written)⟩
  case filterFile => exact ⟨written, fun empty => filled.2 (empty ▸ written)⟩
  case defaultCount | startIndex | count =>
    obtain ⟨n, value, rfl⟩ := Option.map_eq_some_iff.mp written
    exact ⟨n, value, spellsNumber_toString n⟩
  case orderDirection =>
    obtain ⟨d, value, rfl⟩ := Option.map_eq_some_iff.mp written
    exact ⟨d, value, by cases d <;> decide +kernel⟩
  case resource | orderBy | requestId => exact written

def toWritten (g : Given) (option : OptionName) : Option WrittenOption :=
  (g.text? option).map fun text => { option, text }

theorem option_of_toWritten {w : WrittenOption} (written : g.toWritten option = some w) :
    w.option = option := by
  obtain ⟨_, _, rfl⟩ := Option.map_eq_some_iff.mp written
  rfl

/-- Any values can be written, each in one word with its option. -/
theorem exists_written (filled : g.PathsFilled) : ∃ ws, g.Written ws := by
  refine ⟨Level.compile.options.filterMap g.toWritten, ?_, ?_, ?_, ?_⟩
  · have distinct : Level.compile.options.Nodup := by decide
    rw [List.Nodup, List.pairwise_map, List.pairwise_filterMap]
    refine distinct.imp fun different w written w' written' => ?_
    rwa [option_of_toWritten written, option_of_toWritten written']
  · intro w member
    obtain ⟨option, _, written⟩ := List.mem_filterMap.mp member
    obtain ⟨text, found, rfl⟩ := Option.map_eq_some_iff.mp written
    exact spells_of_text? filled found
  · intro option present
    obtain ⟨text, found⟩ := exists_text present
    refine List.mem_map.mpr ⟨{ option, text }, List.mem_filterMap.mpr ⟨option, ?_, ?_⟩, rfl⟩
    · cases option <;> decide
    · rw [toWritten, found]
      rfl
  · intro w member apart
    obtain ⟨option, _, written⟩ := List.mem_filterMap.mp member
    obtain ⟨text, _, rfl⟩ := Option.map_eq_some_iff.mp written
    cases apart

end Given

/-! ### Reading written options -/

section Reading

variable {level : Level} {p : Progress} {g g' : Given}

theorem Progress.awaiting?_of_settle (settled : p.settle = .ok g) : p.awaiting? = none := by
  obtain ⟨given, pending⟩ := p
  rcases pending with _ | ⟨option, _ | text⟩
  · rfl
  · cases settled
  · rfl

theorem scan_long {word name : String} {value : Option String}
    (read : Word.ofString word = .long name value) (words : List String) (p : Progress) :
    scan level (word :: words) p = (p.long level name value).bind (scan level words) := by
  rw [scan.eq_def]
  simp only [read]
  rfl

theorem scan_plain {text : String} (plain : text.toList.head? ≠ some '-') (words : List String)
    (p : Progress) :
    scan level (text :: words) p =
      match p.awaiting? with
      | some option => scan level words { p with pending := some (option, some text) }
      | none => .ok (p, .word text words) := by
  have step := scan.eq_def level (text :: words) p
  simp only [Word.ofString_plain plain] at step
  exact step

/-- Reading one written option gives its value, now or when the next option is read. -/
theorem scan_written {w : WrittenOption} (member : w.option ∈ level.options)
    (plain : w.apart = true → w.text.toList.head? ≠ some '-') (settled : p.settle = .ok g)
    (given : g.give w.option w.text = .ok g') (rest : List String) :
    ∃ p' : Progress, p'.settle = .ok g' ∧ scan level (w.words ++ rest) p = scan level rest p' := by
  have found := Level.find?_long member
  obtain ⟨option, text, apart⟩ := w
  cases apart with
  | false =>
    have attached : p.long level option.long (some text) = .ok ⟨g', none⟩ := by
      simp only [Progress.long, found, Progress.take, Progress.attach, bind_ok_iff, pure_ok_iff]
      exact ⟨g, settled, g', given, rfl⟩
    refine ⟨⟨g', none⟩, rfl, ?_⟩
    exact (scan_long (Word.ofString_joined option text) rest p).trans (by rw [attached]; rfl)
  | true =>
    have awaited : p.long level option.long none = .ok ⟨g, some (option, none)⟩ := by
      simp only [Progress.long, found, Progress.take, Progress.await, bind_ok_iff, pure_ok_iff]
      exact ⟨g, settled, rfl⟩
    refine ⟨⟨g, some (option, some text)⟩, given, ?_⟩
    calc scan level (("--" ++ option.long) :: text :: rest) p
        = scan level (text :: rest) ⟨g, some (option, none)⟩ := by
          rw [scan_long (Word.ofString_name option), awaited]
          rfl
      _ = scan level rest ⟨g, some (option, some text)⟩ := scan_plain (plain rfl) rest _

/-- The written options of a level, read one by one. -/
theorem scan_writtenAll {ws : List WrittenOption} (members : ∀ w ∈ ws, w.option ∈ level.options)
    (plain : ∀ w ∈ ws, w.apart = true → w.text.toList.head? ≠ some '-')
    (settled : p.settle = .ok g)
    (given : ws.foldlM (fun g w => g.give w.option w.text) g = .ok g') (rest : List String) :
    ∃ p' : Progress, p'.settle = .ok g' ∧
      scan level (ws.flatMap WrittenOption.words ++ rest) p = scan level rest p' := by
  induction ws generalizing p g with
  | nil =>
    obtain rfl := pure_ok_iff.mp given
    exact ⟨p, settled, rfl⟩
  | cons w ws ih =>
    rw [List.foldlM_cons] at given
    obtain ⟨g₁, first, later⟩ := bind_ok_iff.mp given
    obtain ⟨member, members⟩ := List.forall_mem_cons.mp members
    obtain ⟨plainFirst, plain⟩ := List.forall_mem_cons.mp plain
    obtain ⟨p₁, settled₁, read⟩ := scan_written member plainFirst settled first
      (ws.flatMap WrittenOption.words ++ rest)
    obtain ⟨p', settled', readRest⟩ := ih members plain settled₁ later
    refine ⟨p', settled', ?_⟩
    rw [List.flatMap_cons, List.append_assoc, read, readRest]

namespace Given

/-- Values that are given one by one are all given in the end. -/
theorem foldlM_only {ws : List WrittenOption} {options : List OptionName}
    (spelled : ∀ w ∈ ws, g.Spells w.option w.text)
    (once : (options ++ ws.map (·.option)).Nodup) :
    ws.foldlM (fun g w => g.give w.option w.text) (g.only options) =
      .ok (g.only ((ws.map (·.option)).reverse ++ options)) := by
  induction ws generalizing options with
  | nil => rfl
  | cons w ws ih =>
    obtain ⟨first, later⟩ := List.forall_mem_cons.mp spelled
    have moved : (w.option :: options ++ ws.map (·.option)).Nodup :=
      (List.perm_middle.nodup_iff).mp once
    have fresh : w.option ∉ options := fun member =>
      (List.nodup_cons.mp moved).1 (List.mem_append_left _ member)
    rw [List.foldlM_cons, give_of_spells (has_only fresh) first, copy_only]
    show ws.foldlM _ (g.only (w.option :: options)) = _
    rw [ih later moved]
    simp

theorem Written.foldlM_give {ws : List WrittenOption} (written : g.Written ws) :
    ws.foldlM (fun g w => g.give w.option w.text) ({} : Given) = .ok g := by
  have given : ws.foldlM (fun g w => g.give w.option w.text) (g.only []) =
      .ok (g.only ((ws.map (·.option)).reverse ++ [])) :=
    foldlM_only written.spelled written.once
  rw [only_nil, List.append_nil] at given
  rw [given, only_eq_self]
  exact fun option present => List.mem_reverse.mpr (written.complete option present)

/-- The words of written options are read up to what stands behind them. -/
theorem Written.scan {ws : List WrittenOption} (written : g.Written ws)
    (members : ∀ w ∈ ws, w.option ∈ level.options) (rest : List String) :
    ∃ p : Progress, p.settle = .ok g ∧
      scan level (ws.flatMap WrittenOption.words ++ rest) {} = scan level rest p :=
  scan_writtenAll members written.plain rfl written.foldlM_give rest

end Given

end Reading

/-! ### The environment -/

namespace Given

/-- The variables that stand in for options hold these values, and none stands in for another
option. -/
def InEnvironment (vars : Given) (env : String → Option String) : Prop :=
  ∀ option, match option.fallback?.bind env with
    | some text => vars.Spells option text
    | none => vars.has option = false

/-- Other values for what is absent. -/
def or (g other : Given) : Given where
  config := g.config.or other.config
  defaultCount := g.defaultCount.or other.defaultCount
  resource := g.resource.or other.resource
  filterFile := g.filterFile.or other.filterFile
  startIndex := g.startIndex.or other.startIndex
  count := g.count.or other.count
  orderBy := g.orderBy.or other.orderBy
  orderDirection := g.orderDirection.or other.orderDirection
  requestId := g.requestId.or other.requestId

variable {g vars : Given} {env : String → Option String} {option : OptionName}

theorem copy_or_of_has (present : g.has option = true) : g.copy (g.or vars) option = g := by
  cases option
  all_goals
    obtain ⟨value, same⟩ := Option.isSome_iff_exists.mp present
    simp only [copy, or, same, Option.some_or]
    rw [← same]

theorem copy_or_of_absent (absent : g.has option = false) :
    g.copy (g.or vars) option = g.copy vars option := by
  cases option <;> simp_all [has, copy, or]

theorem copy_self_of_absent (absent : g.has option = false) (unset : vars.has option = false) :
    g.copy vars option = g := by
  cases option
  all_goals
    obtain ⟨_, _, _, _, _, _, _, _, _⟩ := g
    simp_all [has, copy]

theorem fill_eq (environment : vars.InEnvironment env) (g : Given) (option : OptionName) :
    fill env g option = .ok (g.copy (g.or vars) option) := by
  have held := environment option
  rw [fill]
  cases present : g.has option with
  | true => rw [if_pos rfl, copy_or_of_has present]
  | false =>
    rw [if_neg Bool.false_ne_true, copy_or_of_absent present]
    split at held
    · next text found => simp only [found, give_of_spells present held]
    · next found => simp only [found, copy_self_of_absent present held]

theorem complete_eq (environment : vars.InEnvironment env) (level : Level) (g : Given) :
    g.complete env level = .ok (level.options.foldl (fun g option => g.copy (g.or vars) option) g) := by
  rw [complete]
  induction level.options generalizing g with
  | nil => rfl
  | cons option options ih =>
    rw [List.foldlM_cons, fill_eq environment]
    exact ih _

theorem complete_compile (environment : vars.InEnvironment env) (g : Given) :
    g.complete env .compile = .ok (g.or vars) :=
  complete_eq environment .compile g

theorem complete_top (environment : vars.InEnvironment env) (g : Given) :
    g.complete env .top = .ok { g with
      config := g.config.or vars.config
      defaultCount := g.defaultCount.or vars.defaultCount } :=
  complete_eq environment .top g

theorem slot_or_of_absent {slot other : Option α} (absent : other.isSome = false) :
    slot.or other = slot := by
  cases other with
  | none => exact Option.or_none
  | some => cases absent

/-- Options without a variable have no value in the environment. -/
theorem InEnvironment.absent (environment : vars.InEnvironment env) (option : OptionName)
    (no : option.fallback? = none) : vars.has option = false := by
  have held := environment option
  rw [no] at held
  exact held

theorem compileCommand_or (environment : vars.InEnvironment env) {resource : String}
    (named : g.resource.or vars.resource = some resource) :
    compileCommand (g.or vars) = .ok (.compile ⟨resource, g.filterFile, g.startIndex.getD 0, g.count,
      g.orderBy, g.orderDirection, g.requestId⟩) := by
  have absent := environment.absent
  simp only [compileCommand, or, named, slot_or_of_absent (absent .filterFile rfl),
    slot_or_of_absent (absent .startIndex rfl), slot_or_of_absent (absent .count rfl),
    slot_or_of_absent (absent .orderBy rfl), slot_or_of_absent (absent .orderDirection rfl),
    slot_or_of_absent (absent .requestId rfl)]

end Given

/-! ### Command lines -/

section Words

variable {env : String → Option String} {vars front behind : Given}
  {before after : List WrittenOption}

theorem readBehind_written (written : behind.Written after) :
    readBehind .compile (after.flatMap WrittenOption.words) = .ok behind := by
  have members : ∀ w ∈ after, w.option ∈ Level.compile.options := by
    intro w _
    cases w.option <;> decide
  obtain ⟨p, settled, scanned⟩ := written.scan members []
  rw [List.append_nil] at scanned
  rw [readBehind, scanned]
  exact settled

theorem readCommand_written (environment : vars.InEnvironment env) (written : behind.Written after)
    {resource : String} (named : behind.resource.or vars.resource = some resource) :
    readCommand env "compile" (after.flatMap WrittenOption.words) = .ok (behind,
      .compile ⟨resource, behind.filterFile, behind.startIndex.getD 0, behind.count, behind.orderBy,
        behind.orderDirection, behind.requestId⟩) := by
  show (readBehind .compile _).bind _ = _
  rw [readBehind_written written]
  show (behind.complete env .compile).bind _ = _
  rw [Given.complete_compile environment]
  show (compileCommand (behind.or vars)).bind _ = _
  rw [Given.compileCommand_or environment named]
  rfl

/-- Options in front of `compile` and behind it, in any order, are read as the values that were
written. What stands behind the command counts more than what stands in front of it, and a variable
counts only for what stands nowhere. -/
theorem command_words_read (environment : vars.InEnvironment env) (writtenFront : front.Written before)
    (top : ∀ w ∈ before, w.option = .config ∨ w.option = .defaultCount)
    (writtenBehind : behind.Written after) {resource : String}
    (named : behind.resource.or vars.resource = some resource) :
    parse env (before.flatMap WrittenOption.words ++
        "compile" :: after.flatMap WrittenOption.words) = .ok
      ⟨⟨(behind.config.or front.config).or vars.config,
          (behind.defaultCount.or front.defaultCount).or vars.defaultCount⟩,
        .compile ⟨resource, behind.filterFile, behind.startIndex.getD 0, behind.count,
          behind.orderBy, behind.orderDirection, behind.requestId⟩⟩ := by
  have members : ∀ w ∈ before, w.option ∈ Level.top.options := by
    intro w member
    simpa [Level.options] using top w member
  obtain ⟨p, settled, scanned⟩ := writtenFront.scan members
    ("compile" :: after.flatMap WrittenOption.words)
  have stopped : scan .top ("compile" :: after.flatMap WrittenOption.words) p =
      .ok (p, .word "compile" (after.flatMap WrittenOption.words)) := by
    rw [scan_plain (by decide), p.awaiting?_of_settle settled]
  have behindRead := readCommand_written environment writtenBehind named
  have topRead : readTop env p = .ok { front with
      config := front.config.or vars.config
      defaultCount := front.defaultCount.or vars.defaultCount } := by
    rw [readTop, settled]
    exact Given.complete_top environment front
  rw [parse, scanned, stopped]
  show (readCommand env "compile" _).bind _ = _
  rw [behindRead]
  show (readTop env p).bind _ = _
  rw [topRead, Option.or_assoc, Option.or_assoc]
  rfl

/-! ### Values that look like options -/

def sampleEnvironment : String → Option String
  | "SCIMSQL_CONFIG" => some "a.json"
  | "SCIMSQL_DEFAULT_COUNT" => some "+5"
  | _ => none

/-- The values look like other words of a command line; one variable counts and one does not. -/
theorem sampleEnvironment_words_read :
    parse sampleEnvironment ["--config=-x=1", "compile", "--order-by=--count=3", "--resource",
        "compile", "--count", "007", "--order-direction", "DESC"] =
      .ok ⟨⟨some "-x=1", some 5⟩,
        .compile ⟨"compile", none, 0, some 7, some "--count=3", some .desc, none⟩⟩ := by
  have environment : Given.InEnvironment { config := some "a.json", defaultCount := some 5 }
      sampleEnvironment := by
    intro option
    cases option
    case config => exact ⟨rfl, by decide⟩
    case defaultCount =>
      exact ⟨5, rfl, ['5'], .inr (by decide), by decide, List.all_eq_true.mp (by decide), by decide⟩
    all_goals rfl
  have front : Given.Written { config := some "-x=1" } [⟨.config, "-x=1", false⟩] := by
    refine ⟨by decide, ?_, ?_, by simp⟩
    · simp [Given.Spells]
    · intro option
      cases option <;> decide
  have behind : Given.Written
      { resource := some "compile", count := some 7, orderBy := some "--count=3",
        orderDirection := some .desc }
      [⟨.orderBy, "--count=3", false⟩, ⟨.resource, "compile", true⟩, ⟨.count, "007", true⟩,
        ⟨.orderDirection, "DESC", true⟩] := by
    have count : SpellsNumber "007" 7 :=
      ⟨['0', '0', '7'], .inl (by decide), by decide, List.all_eq_true.mp (by decide), by decide⟩
    refine ⟨by decide, ?_, ?_, ?_⟩
    · simp only [List.forall_mem_cons]
      exact ⟨rfl, rfl, ⟨7, rfl, count⟩, ⟨.desc, rfl, by decide +kernel⟩, nofun⟩
    · intro option
      cases option <;> decide
    · simp only [List.forall_mem_cons]
      exact ⟨nofun, fun _ => by decide, fun _ => by decide, fun _ => by decide, nofun⟩
  exact command_words_read environment front (by simp) behind rfl

end Words

end ScimQuery.CommandLine
