import Mathlib.Data.List.Forall2
import ScimQuery.Program
import ScimQuery.Proofs.ColumnName
import ScimQuery.Proofs.DefaultOrder

/-!
# Listed resources

What the `resources` command prints: a block for each resource, in it the name and a line for each
mapping, both in the order of their bytes. From each line its mapping can be read again
(`listing_complete`). Names and paths are printed as they are, so one that holds a line break takes
more than one line of the output (`brokenName_spans_lines`).
-/

namespace ScimQuery

/-! ### Blanks around texts -/

theorem Text.trim_padded {before behind : List Char} (text : List Char)
    (blankBefore : ∀ c ∈ before, isBlank c = true) (blankBehind : ∀ c ∈ behind, isBlank c = true) :
    trim (before ++ text ++ behind) = trim text := by
  unfold trim
  rw [List.append_assoc, List.dropWhile_append_of_pos blankBefore, List.dropWhile_append]
  split
  · next blank =>
    rw [List.isEmpty_iff] at blank
    rw [blank, List.dropWhile_eq_nil_iff.mpr blankBehind]
  · rw [List.reverse_append, List.dropWhile_append_of_pos]
    exact fun c member => blankBehind c (List.mem_reverse.mp member)

theorem Attribute.parse_padded {a : Attribute} {text : String} (read : parse text = .ok a)
    {before behind : List Char} (blankBefore : ∀ c ∈ before, Text.isBlank c = true)
    (blankBehind : ∀ c ∈ behind, Text.isBlank c = true) :
    parse (String.ofList (before ++ a.text.toList ++ behind)) = .ok a := by
  rw [← parse_text_of_parse read]
  apply parse_congr
  rw [String.toList_ofList, Text.trim_padded _ blankBefore blankBehind]

namespace Settings

/-! ### Lines -/

/-- The last word of a text and what stands in front of it, both read from behind. -/
def wordBehind (text : List Char) : List Char × List Char :=
  let text := text.dropWhile (· = ' ')
  ((text.takeWhile (· ≠ ' ')).reverse, text.dropWhile (· ≠ ' '))

theorem wordBehind_eq {word : List Char} (filled : word ≠ []) (solid : ' ' ∉ word) (n : Nat)
    (front : List Char) :
    wordBehind (List.replicate n ' ' ++ (word.reverse ++ ' ' :: front)) = (word, ' ' :: front) := by
  have blanks : ∀ c ∈ List.replicate n ' ', decide (c = ' ') = true := by simp
  have letters : ∀ c ∈ word.reverse, decide (c ≠ ' ') = true := by
    intro c member
    exact decide_eq_true fun same => solid (same ▸ List.mem_reverse.mp member)
  have start : (word.reverse ++ ' ' :: front).dropWhile (· = ' ') = word.reverse ++ ' ' :: front := by
    obtain ⟨c, cs, first⟩ := List.exists_cons_of_ne_nil (mt List.reverse_eq_nil_iff.mp filled)
    rw [first] at letters ⊢
    exact List.dropWhile_cons_of_neg (by simpa using letters c List.mem_cons_self)
  rw [wordBehind, List.dropWhile_append_of_pos blanks, start,
    List.takeWhile_append_of_pos letters, List.dropWhile_append_of_pos letters]
  simp

def mark : List Char := "sortable".toList

/-- Whether the last word is the mark, and the text without it. -/
def readMark (text : List Char) : Bool × List Char :=
  if (wordBehind text).1 = mark then (true, (wordBehind text).2) else (false, text)

/-- The mapping that a line tells of. The path stands in front and may have blanks in it, so the
line is read from behind. -/
def readMapping? (line : String) : Option (Attribute × Column) :=
  let (sortable, text) := readMark line.toList.reverse
  let (type, text) := wordBehind text
  let (column, text) := wordBehind text
  (Attribute.parse (String.ofList text.reverse)).toOption.bind fun a =>
    (ColumnType.all.find? fun t => t.name.toList = type).map fun t =>
      (a, ⟨String.ofList column, t, sortable⟩)

/-- What stands in front of a mapping's type, read from behind: its column and its path. -/
def pathBehind (k : Nat) (a : Attribute) : List Char :=
  ' ' :: (List.replicate k ' ' ++ (a.text.toList.reverse ++ [' ', ' ']))

theorem parse_pathBehind {a : Attribute} {text : String} (read : Attribute.parse text = .ok a)
    (k : Nat) : Attribute.parse (String.ofList (pathBehind k a).reverse) = .ok a := by
  have blanks : ∀ j, ∀ c ∈ List.replicate j ' ', Text.isBlank c = true := by
    intro j c member
    obtain rfl := List.eq_of_mem_replicate member
    decide
  have padded : (pathBehind k a).reverse =
      List.replicate 2 ' ' ++ a.text.toList ++ List.replicate (k + 1) ' ' := by
    simp [pathBehind, List.replicate_succ']
  rw [padded]
  exact Attribute.parse_padded read (blanks 2) (blanks (k + 1))

theorem reverse_padTo (width : Nat) (text : String) :
    ∃ n, (padTo width text).toList.reverse = List.replicate n ' ' ++ text.toList.reverse :=
  ⟨width - text.length, by simp [padTo]⟩

/-- A line without the mark, read from behind. -/
def lineBehind (k m n : Nat) (a : Attribute) (c : Column) : List Char :=
  List.replicate n ' ' ++ (c.type.name.toList.reverse ++ ' ' ::
    (List.replicate m ' ' ++ (c.column.toList.reverse ++ pathBehind k a)))

theorem reverse_mappingLine (a : Attribute) (c : Column) :
    ∃ k m n, (mappingLine a c).toList.reverse =
      if c.sortable then mark.reverse ++ ' ' :: lineBehind k m n a c
      else lineBehind k m n a c := by
  obtain ⟨k, path⟩ := reverse_padTo 24 a.text
  obtain ⟨m, column⟩ := reverse_padTo 24 c.column
  obtain ⟨n, type⟩ := reverse_padTo 6 c.type.name
  refine ⟨k, m, n, ?_⟩
  simp only [mappingLine, String.toList_append, List.reverse_append, path, column, type, lineBehind,
    pathBehind, List.append_assoc]
  cases c.sortable <;> rfl

theorem type_word (t : ColumnType) :
    t.name.toList ≠ [] ∧ ' ' ∉ t.name.toList ∧ t.name.toList ≠ mark ∧
      (ColumnType.all.find? fun u => u.name.toList = t.name.toList) = some t := by
  cases t <;> decide

theorem wordBehind_lineBehind (k m n : Nat) (a : Attribute) (c : Column) :
    wordBehind (lineBehind k m n a c) = (c.type.name.toList,
      ' ' :: (List.replicate m ' ' ++ (c.column.toList.reverse ++ pathBehind k a))) := by
  obtain ⟨filled, solid, _⟩ := type_word c.type
  exact wordBehind_eq filled solid n _

theorem readMark_mappingLine (a : Attribute) (c : Column) :
    ∃ k m n, readMark (mappingLine a c).toList.reverse = (c.sortable, lineBehind k m n a c) := by
  obtain ⟨k, m, n, line⟩ := reverse_mappingLine a c
  rw [line]
  cases c.sortable with
  | false =>
    obtain ⟨_, _, unmarked, _⟩ := type_word c.type
    refine ⟨k, m, n, ?_⟩
    rw [if_neg Bool.false_ne_true, readMark, wordBehind_lineBehind, if_neg unmarked]
  | true =>
    have last := @wordBehind_eq mark (by decide) (by decide) 0 (lineBehind k m n a c)
    rw [List.replicate_zero, List.nil_append] at last
    refine ⟨k, m, n + 1, ?_⟩
    rw [if_pos rfl, readMark, last, if_pos rfl]
    rfl

/-- A line tells which mapping it was written for. -/
theorem readMapping?_mappingLine {a : Attribute} {text : String}
    (read : Attribute.parse text = .ok a) {c : Column} (named : isColumnName c.column = true) :
    readMapping? (mappingLine a c) = some (a, c) := by
  obtain ⟨k, m, n, marked⟩ := readMark_mappingLine a c
  obtain ⟨_, _, _, found⟩ := type_word c.type
  have solid : ' ' ∉ c.column.toList := by
    intro blank
    exact absurd (columnName_chars named ' ' blank) (by decide)
  have column : wordBehind (' ' :: (List.replicate m ' ' ++ (c.column.toList.reverse ++
      pathBehind k a))) = (c.column.toList, pathBehind k a) :=
    wordBehind_eq (columnName_nonempty named) solid (m + 1) _
  rw [readMapping?, marked]
  simp only [wordBehind_lineBehind, column, parse_pathBehind read, found, String.ofList_toList]
  rfl

example : mappingLine { name := "id" } ⟨"t.id", .int, true⟩ =
    "  id                       t.id                     int    sortable" := by
  decide +kernel

/-! ### Line breaks -/

theorem toList_printed (lines : List String) :
    (String.join (lines.map (· ++ "\n"))).toList =
      ['\n'].intercalate (lines.map String.toList ++ [[]]) := by
  rw [String.toList_join]
  induction lines with
  | nil => rfl
  | cons l lines ih =>
    rw [List.map_cons, List.flatMap_cons, ih, List.map_cons, List.cons_append,
      List.intercalate_cons_of_ne_nil (by simp), String.toList_append]
    rfl

theorem not_mem_of_mem_splitOn {sep : Char} {text piece : List Char}
    (member : piece ∈ text.splitOn sep) : sep ∉ piece := by
  induction text generalizing piece with
  | nil =>
    rw [List.splitOn_nil, List.mem_singleton] at member
    exact member ▸ List.not_mem_nil
  | cons c text ih =>
    rw [List.splitOn_cons_eq_if_modifyHead] at member
    split at member
    · rcases List.mem_cons.mp member with rfl | later
      · exact List.not_mem_nil
      · exact ih later
    · next other =>
      obtain ⟨first, others, pieces⟩ := List.exists_cons_of_ne_nil (List.splitOn_ne_nil sep text)
      rw [pieces, List.modifyHead_cons] at member
      rw [pieces] at ih
      rcases List.mem_cons.mp member with rfl | later
      · refine List.not_mem_cons_of_ne_of_not_mem ?_ (ih List.mem_cons_self)
        rintro rfl
        exact other BEq.rfl
      · exact ih (List.mem_cons_of_mem first later)

/-- Texts that are printed one after the other, each with a line break behind it, are the lines of
the output if and only if no line break is in them. -/
theorem splitOn_printed_iff {lines : List String} :
    (String.join (lines.map (· ++ "\n"))).toList.splitOn '\n' = lines.map String.toList ++ [[]] ↔
      ∀ l ∈ lines, '\n' ∉ l.toList := by
  constructor
  · intro whole l member
    have piece : l.toList ∈ lines.map String.toList ++ [[]] :=
      List.mem_append_left _ (List.mem_map_of_mem member)
    rw [← whole] at piece
    exact not_mem_of_mem_splitOn piece
  · intro unbroken
    rw [toList_printed]
    apply List.splitOn_intercalate
    · intro l member
      rcases List.mem_append.mp member with line | last
      · obtain ⟨text, present, rfl⟩ := List.mem_map.mp line
        exact unbroken text present
      · simp [List.mem_singleton.mp last]
    · simp

theorem unbroken_mappingLine_iff {a : Attribute} {c : Column}
    (named : isColumnName c.column = true) :
    '\n' ∉ (mappingLine a c).toList ↔ '\n' ∉ a.text.toList := by
  have column : '\n' ∉ c.column.toList := by
    intro member
    exact absurd (columnName_chars named '\n' member) (by decide)
  have type : '\n' ∉ c.type.name.toList := by
    cases c.type <;> decide
  cases marked : c.sortable <;> simp [mappingLine, padTo, column, type, marked]

/-! ### Blocks -/

/-- The lines of a block: the name of a resource, and a line for each mapping. -/
def blockLines (b : String × List (Attribute × Column)) : List String :=
  b.1 :: b.2.map fun m => mappingLine m.1 m.2

theorem listing_eq (s : Settings) :
    s.listing = (s.resources.entries.map fun e => (e.1, e.2.listed)).flatMap blockLines := by
  rw [List.flatMap_map]
  rfl

/-- No line break stands in the name of a resource or in the text of an attribute. -/
def Unbroken (s : Settings) : Prop :=
  ∀ e ∈ s.resources.entries, '\n' ∉ e.1.toList ∧ ∀ m ∈ e.2.table.entries, '\n' ∉ m.1.text.toList

instance (s : Settings) : Decidable s.Unbroken :=
  inferInstanceAs (Decidable (∀ e ∈ s.resources.entries, _ ∧ ∀ m ∈ e.2.table.entries, _))

theorem unbroken_iff {s : Settings} (checked : s.Checked) :
    s.Unbroken ↔ ∀ l ∈ s.listing, '\n' ∉ l.toList := by
  have block : ∀ e ∈ s.resources.entries, (∀ m ∈ e.2.table.entries, '\n' ∉ m.1.text.toList) ↔
      ∀ l ∈ e.2.listed.map fun m => mappingLine m.1 m.2, '\n' ∉ l.toList := by
    intro e present
    rw [List.forall_mem_map]
    refine forall_congr' fun m => ?_
    rw [Resource.mem_listed]
    refine forall_congr' fun mapped => ?_
    exact (unbroken_mappingLine_iff ((checked.resources e present).named m mapped)).symm
  rw [Settings.listing_eq, List.flatMap_map]
  simp only [List.mem_flatMap, blockLines, forall_exists_index, and_imp]
  constructor
  · intro unbroken l e present line
    obtain ⟨name, paths⟩ := unbroken e present
    rcases List.mem_cons.mp line with rfl | line
    · exact name
    · exact (block e present).mp paths l line
  · intro unbroken e present
    refine ⟨unbroken e.1 e present List.mem_cons_self, (block e present).mpr fun l line => ?_⟩
    exact unbroken l e present (List.mem_cons_of_mem _ line)

/-- The same settings with the mappings of each resource in another order. -/
def Reordered (s s' : Settings) : Prop :=
  List.Forall₂ (fun e e' => e'.1 = e.1 ∧ e'.2.table.entries.Perm e.2.table.entries)
    s.resources.entries s'.resources.entries

theorem Reordered.listing_eq {s s' : Settings} (reordered : s.Reordered s')
    (parsed : ∀ e ∈ s.resources.entries, e.2.table.Parsed) : s'.listing = s.listing := by
  unfold Reordered at reordered
  rw [Settings.listing_eq, Settings.listing_eq]
  congr 1
  generalize s.resources.entries = es at reordered parsed ⊢
  generalize s'.resources.entries = es' at reordered ⊢
  induction reordered with
  | nil => rfl
  | cons same _ ih =>
    obtain ⟨first, rest⟩ := List.forall_mem_cons.mp parsed
    rw [List.map_cons, List.map_cons, ih rest, same.1, Resource.listed_eq_of_perm first same.2]

end Settings

/-! ### Runs -/

open CommandLine

/-- A run of the `resources` command prints the listing of the settings that it loads. -/
theorem Program.run_resources {world : Surroundings} {words : List String} {overrides : Overrides}
    {s : Settings} (parsed : CommandLine.parse world.environment words = .ok ⟨overrides, .resources⟩)
    (loaded : (Settings.load world.files world.home overrides).result = .ok s) :
    (Program.run world words).exitCode = 0 ∧
      (Program.run world words).stdout = String.join (s.listing.map (· ++ "\n")) := by
  have performed : (Program.perform world ⟨overrides, .resources⟩).result = .ok s.listing := by
    simp [Program.perform, Program.print, loaded, Except.bind, Except.mapError]
  simp only [Program.run, parsed, performed]
  exact ⟨rfl, rfl⟩

/-- A run of the `resources` command prints a block for each resource, in the order of the bytes of
the names: the name, and a line for each mapping in the order of the bytes of the paths. Each line
tells its own mapping. Names and paths are printed as they are; these lines are the lines of the
output if and only if no line break is in them. The order that tables have their mappings in does
not matter. -/
theorem listing_complete {world : Surroundings} {words : List String} {overrides : Overrides}
    {s : Settings} (parsed : CommandLine.parse world.environment words = .ok ⟨overrides, .resources⟩)
    (loaded : (Settings.load world.files world.home overrides).result = .ok s) :
    (Program.run world words).exitCode = 0 ∧
    (∃ blocks : List (String × List (Attribute × Column)),
      (Program.run world words).stdout =
        String.join ((blocks.flatMap Settings.blockLines).map (· ++ "\n")) ∧
      (blocks.map (·.1)).Pairwise Text.Before ∧
      List.Forall₂ (fun b e => b.1 = e.1 ∧ b.2.Perm e.2.table.entries) blocks s.resources.entries ∧
      (∀ b ∈ blocks, b.2.Pairwise (fun m m' => Text.Before m.1.text m'.1.text) ∧
        ∀ m ∈ b.2, Settings.readMapping? (Settings.mappingLine m.1 m.2) = some m) ∧
      (s.Unbroken ↔ (Program.run world words).stdout.toList.splitOn '\n' =
        (blocks.flatMap Settings.blockLines).map String.toList ++ [[]])) ∧
    ∀ s', s.Reordered s' →
      (Program.print s' world .resources).result = (Program.print s world .resources).result := by
  have tables : ∀ e ∈ s.resources.entries, e.2.table.Parsed :=
    fun e present => load_parsed loaded present
  have checked := load_checked loaded
  obtain ⟨ended, printed⟩ := Program.run_resources parsed loaded
  refine ⟨ended, ⟨s.resources.entries.map fun e => (e.1, e.2.listed), ?_, ?_, ?_, ?_, ?_⟩, ?_⟩
  · rw [printed, Settings.listing_eq]
  · rw [List.map_map]
    exact s.resources.sorted.imp Text.before_iff.mpr
  · rw [List.forall₂_map_left_iff, List.forall₂_same]
    exact fun e _ => ⟨rfl, List.mergeSort_perm _ _⟩
  · intro b member
    obtain ⟨e, present, rfl⟩ := List.mem_map.mp member
    refine ⟨(Resource.listed_strictly (tables e present)).imp Text.before_iff.mpr, ?_⟩
    intro m listed
    have mapped := Resource.mem_listed.mp listed
    obtain ⟨text, read⟩ := tables e present m mapped
    exact Settings.readMapping?_mappingLine read ((checked.resources e present).named m mapped)
  · rw [printed, ← Settings.listing_eq, Settings.splitOn_printed_iff]
    exact Settings.unbroken_iff checked
  · intro s' reordered
    simp only [Program.print, Recorded.result_pure, reordered.listing_eq tables]

/-! ### Two resources -/

/-- Neither the resources nor the mappings are in order, and one attribute has blanks around it. -/
def listedWorld : Surroundings where
  files := Files.ofList [("scimsql.json", .ok ("\x7b\"resources\":\x7b\"users\":\x7b\"mappings\":\x7b"
    ++ "\"name.family\":\x7b\"column\":\"t.family\"\x7d,"
    ++ "\" id \":\x7b\"column\":\"t.id\",\"type\":\"int\",\"sortable\":true\x7d\x7d\x7d,"
    ++ "\"groups\":\x7b\x7d\x7d\x7d"))]

theorem listedWorld_complete :
    CommandLine.parse listedWorld.environment ["resources"] = .ok ⟨{}, .resources⟩ ∧
    ∃ s, (Settings.load listedWorld.files listedWorld.home {}).result = .ok s ∧ s.Unbroken ∧
      ∃ blocks : List (String × List (Attribute × Column)),
        (Program.run listedWorld ["resources"]).stdout =
          String.join ((blocks.flatMap Settings.blockLines).map (· ++ "\n")) ∧
        (blocks.map (·.1)).Pairwise Text.Before ∧
        List.Forall₂ (fun b e => b.1 = e.1 ∧ b.2.Perm e.2.table.entries) blocks
          s.resources.entries ∧
        (∀ b ∈ blocks, ∀ m ∈ b.2,
          Settings.readMapping? (Settings.mappingLine m.1 m.2) = some m) ∧
        (Program.run listedWorld ["resources"]).stdout.toList.splitOn '\n' =
          (blocks.flatMap Settings.blockLines).map String.toList ++ [[]] := by
  have parsed : CommandLine.parse listedWorld.environment ["resources"] =
    .ok ⟨{}, .resources⟩ := by rfl
  have holds : (Settings.load listedWorld.files listedWorld.home {}).result.toOption.any
      (fun s => s.Unbroken) = true := by decide +kernel
  obtain ⟨s, loaded, unbroken⟩ := (Option.any_eq_true _ _).mp holds
  have loaded := toOption_eq_some_iff.mp loaded
  have unbroken := of_decide_eq_true unbroken
  obtain ⟨_, ⟨blocks, output, ordered, tables, told, whole⟩, _⟩ := listing_complete parsed loaded
  exact ⟨parsed, s, loaded, unbroken, blocks, output, ordered, tables,
    fun b member => (told b member).2, whole.mp unbroken⟩

/-! ### A line break in a name -/

def brokenMapping : Attribute × Column :=
  ({ name := "display\nname" }, ⟨"usr.display_name", .string, false⟩)

def brokenWorld : Surroundings where
  files := Files.ofList [("scimsql.json", .ok ("\x7b\"resources\":\x7b\"users\":\x7b\"mappings\":\x7b"
    ++ "\"display\\nname\":\x7b\"column\":\"usr.display_name\"\x7d\x7d\x7d\x7d\x7d"))]

/-- The one mapping of the one resource takes two lines. -/
theorem brokenName_spans_lines :
    CommandLine.parse brokenWorld.environment ["resources"] = .ok ⟨{}, .resources⟩ ∧
    ∃ s r, (Settings.load brokenWorld.files brokenWorld.home {}).result = .ok s ∧
      s.resources.entries = [("users", r)] ∧ r.table.entries = [brokenMapping] ∧
      (Program.run brokenWorld ["resources"]).stdout.toList.splitOn '\n' =
        ["users".toList, "  display".toList,
          "name             usr.display_name         string".toList, []] := by
  have parsed : CommandLine.parse brokenWorld.environment ["resources"] =
    .ok ⟨{}, .resources⟩ := by rfl
  have holds : (Settings.load brokenWorld.files brokenWorld.home {}).result.toOption.any
      (fun s => s.resources.entries.map (fun e => (e.1, e.2.table.entries)) =
        [("users", [brokenMapping])]) = true := by
    decide +kernel
  obtain ⟨s, loaded, tables⟩ := (Option.any_eq_true _ _).mp holds
  have loaded := toOption_eq_some_iff.mp loaded
  obtain ⟨⟨name, r⟩, resources, same⟩ := List.map_eq_singleton_iff.mp (of_decide_eq_true tables)
  obtain ⟨named, table⟩ := Prod.mk.inj same
  obtain rfl : name = "users" := named
  have listed : r.listed = [brokenMapping] := by
    rw [Resource.listed, table, List.mergeSort_singleton]
  have lines : s.listing = Settings.blockLines ("users", [brokenMapping]) := by
    rw [Settings.listing_eq, resources, List.map_singleton, List.flatMap_singleton, listed]
  refine ⟨parsed, s, r, loaded, resources, table, ?_⟩
  rw [(Program.run_resources parsed loaded).2, lines]
  decide +kernel

end ScimQuery
