import ScimQuery.Program
import ScimQuery.Proofs.LoadedSettings
import ScimQuery.Proofs.Meaning

/-!
# Safe queries

No text from a filter or from the command line gets into the clauses of a printed query
(`compile_run_safe`). A predicate is spelled by fixed tokens and by columns that stand in settings
files, an order names such a column, and a limit holds numbers.
-/

namespace ScimQuery

/-! ### Characters of predicates -/

/-- The signs that predicates are written with, besides letters and digits. -/
def plainSigns : List Char := ['_', '.', '(', ')', '?', '=', '!', '<', '>', ' ']

def isPlain (c : Char) : Bool := c.isAlphanum || c ∈ plainSigns

def Token.isPlaceholder : Token → Bool
  | placeholder => true
  | _ => false

/-- A token that names a column holds a column name. -/
def Token.Named : Token → Prop
  | column name => isColumnName name = true
  | _ => True

theorem NamesColumnsOf.named {table : MappingTable} {ts : List Token} (h : NamesColumnsOf table ts)
    (named : ∀ e ∈ table.entries, isColumnName e.2.column = true) : ∀ t ∈ ts, t.Named := by
  intro t member
  cases t with
  | column name =>
    obtain ⟨e, present, rfl⟩ := h name member
    exact named e present
  | _ => trivial

theorem isNameChar_plain {c : Char} (h : isNameChar c = true) : isPlain c = true := by
  simp only [isNameChar, Bool.or_eq_true, decide_eq_true_eq] at h
  rcases h with (letter | rfl) | rfl
  · simp [isPlain, letter]
  · decide
  · decide

theorem Token.plain {t : Token} (named : t.Named) : ∀ c ∈ t.text, isPlain c = true := by
  cases t with
  | column name =>
    intro c member
    exact isNameChar_plain (columnName_chars named c member)
  | operator o => cases o <;> exact List.all_eq_true.mp (by decide)
  | connective k => cases k <;> exact List.all_eq_true.mp (by decide)
  | _ => exact List.all_eq_true.mp (by decide)

/-- Only placeholders hold a question mark. -/
theorem Token.questions {t : Token} (named : t.Named) :
    t.text.count '?' = if t.isPlaceholder then 1 else 0 := by
  cases t with
  | column name =>
    have absent : '?' ∉ name.toList := by
      intro member
      have inName := columnName_chars named '?' member
      revert inName
      decide
    exact List.count_eq_zero.mpr absent
  | operator o => cases o <;> decide
  | connective k => cases k <;> decide
  | _ => decide

theorem Spells.plain {cs : List Char} {ts : List Token} (h : Spells cs ts)
    (named : ∀ t ∈ ts, t.Named) : ∀ c ∈ cs, isPlain c = true := by
  induction h with
  | done => simp
  | blank _ ih =>
    intro c member
    rcases List.mem_cons.mp member with rfl | later
    · decide
    · exact ih named c later
  | token t _ ih =>
    obtain ⟨first, others⟩ := List.forall_mem_cons.mp named
    intro c member
    rcases List.mem_append.mp member with inside | later
    · exact Token.plain first c inside
    · exact ih others c later

theorem Spells.questions {cs : List Char} {ts : List Token} (h : Spells cs ts)
    (named : ∀ t ∈ ts, t.Named) : cs.count '?' = ts.countP Token.isPlaceholder := by
  induction h with
  | done => rfl
  | blank _ ih =>
    rw [List.count_cons_of_ne (by decide)]
    exact ih named
  | token t _ ih =>
    obtain ⟨first, others⟩ := List.forall_mem_cons.mp named
    rw [List.count_append, Token.questions first, ih others, List.countP_cons, Nat.add_comm]

/-- Each placeholder takes one parameter. -/
theorem Derives.placeholders {ts : List Token} {ps rest : List Parameter} {t : Reading}
    (h : Derives ts ps t rest) : ps.length = ts.countP Token.isPlaceholder + rest.length := by
  induction h with
  | comparison => simp [List.countP_cons, Token.isPlaceholder, Nat.add_comm]
  | presence => simp [Token.isPlaceholder]
  | joined k _ _ first second =>
    simp [Token.isPlaceholder, first, second]
    omega

/-- What a predicate on a table is made of. -/
structure Predicate.Safe (table : MappingTable) (p : Predicate) : Prop where
  plain : ∀ c ∈ p.text.toList, isPlain c = true
  questions : p.text.toList.count '?' = p.parameters.length
  /-- Nothing but fixed tokens and columns of the table. -/
  spelled : ∃ tokens, Spells p.text.toList tokens ∧ NamesColumnsOf table tokens

theorem Compiles.safe {table : MappingTable} {scope : Option String} {f : Filter} {p : Predicate}
    (h : Compiles table scope f p) (named : ∀ e ∈ table.entries, isColumnName e.2.column = true) :
    p.Safe table := by
  obtain ⟨t, tokens, _, spelled, columns, derived⟩ := compiles_reads h named
  have derives : Derives tokens p.parameters t [] := by simpa using derived []
  have wellNamed := columns.named named
  have bound := derives.placeholders
  exact ⟨spelled.plain wellNamed, (spelled.questions wellNamed).trans bound.symm, tokens, spelled,
    columns⟩

theorem Query.predicate_safe {filter : Option Filter} {table : MappingTable} {order : SortOrder}
    {page : Page} {requestId : String} {q : Query}
    (compiled : (Query.compile filter table order page requestId).result = .ok q)
    (named : ∀ e ∈ table.entries, isColumnName e.2.column = true) :
    q.predicate.Safe table ∧ q.limit = page.sql ∧ q.orderBy = order.sql := by
  cases filter with
  | none =>
    obtain rfl := Except.ok.inj compiled
    exact ⟨⟨by simp, rfl, [], .done, by simp [NamesColumnsOf]⟩, rfl, rfl⟩
  | some f =>
    obtain ⟨p, compiles, rfl⟩ := Query.compile_ok_iff.mp compiled
    exact ⟨compiles.safe named, rfl, rfl⟩

/-! ### Orders and limits -/

theorem MappingTable.sortColumn_ok {t : MappingTable} {a : Attribute} {column : String}
    (h : t.sortColumn a = .ok column) :
    ∃ e ∈ t.entries, e.2.sortable = true ∧ e.2.column = column := by
  obtain ⟨c, present, sortable, named⟩ := sortColumn_ok_iff.mp h
  exact ⟨(a, c), present, sortable, named⟩

theorem Resource.sortColumn_ok {r : Resource} {asked : Option String} {column : String}
    (h : r.sortColumn asked = .ok column) :
    ∃ e ∈ r.table.entries, e.2.sortable = true ∧ e.2.column = column := by
  obtain ⟨a?, _, h⟩ := bind_ok_iff.mp h
  cases a? with
  | some a => exact MappingTable.sortColumn_ok (mapError_ok_iff.mp h)
  | none =>
    cases first : r.firstSortable? with
    | none => simp [first] at h
    | some found =>
      simp only [first, pure_ok_iff] at h
      obtain ⟨e, chosen, named⟩ := Option.map_eq_some_iff.mp first
      have member : e ∈ r.table.entries := List.mem_mergeSort.mp (List.mem_of_find?_eq_some chosen)
      have sortable : e.2.sortable = true := by
        simpa using List.find?_some chosen
      exact ⟨e, member, sortable, named.trans h⟩

/-! ### Runs -/

open CommandLine

/-- The page size of a command: the one asked for, else the resource's own, else the default. -/
def CommandLine.CompileOptions.pageSize (o : CompileOptions) (r : Resource) (s : Settings) :
    UInt64 :=
  (o.count.or r.count).getD s.defaultCount

/-- What a query on a resource is made of. -/
structure Query.Safe (settings : Settings) (resource : Resource) (o : CompileOptions)
    (q : Query) : Prop where
  predicate : q.predicate.Safe resource.table
  ordered : ∃ e ∈ resource.table.entries,
    e.2.sortable = true ∧ isColumnName e.2.column = true ∧
      (q.orderBy = "order by " ++ e.2.column ++ " asc" ∨
        q.orderBy = "order by " ++ e.2.column ++ " desc")
  limited : q.limit =
    "limit " ++ toString (min (o.startIndex.toNat * (o.pageSize resource settings).toNat)
      (UInt64.size - 1)) ++ ", " ++ toString (o.pageSize resource settings).toNat
  counted : o.count = none →
    1 ≤ (o.pageSize resource settings).toNat ∧ (o.pageSize resource settings).toNat ≤ 10000

theorem SortOrder.sql_cases (order : SortOrder) :
    order.sql = "order by " ++ order.column ++ " asc" ∨
      order.sql = "order by " ++ order.column ++ " desc" := by
  obtain ⟨column, direction⟩ := order
  cases direction with
  | asc => exact Or.inl (by simp [sql, Direction.name, String.append_assoc])
  | desc => exact Or.inr (by simp [sql, Direction.name, String.append_assoc])

/-- Without a count on the command line the page size has been checked. -/
theorem Settings.Checked.pageSize {s : Settings} (checked : s.Checked) {r : Resource}
    (own : r.Checked) {o : CompileOptions} (unasked : o.count = none) :
    1 ≤ (o.pageSize r s).toNat ∧ (o.pageSize r s).toNat ≤ 10000 := by
  rw [← Settings.inRange_iff, CompileOptions.pageSize, unasked]
  cases given : r.count with
  | some n => exact own.count n given
  | none => exact checked.defaultCount

theorem Program.compile_safe {settings : Settings} {world : Surroundings} {o : CompileOptions}
    {q : Query} (checked : settings.Checked)
    (compiled : (Program.compile settings world o).result = .ok q) :
    ∃ resource, settings.resource o.resource = .ok resource ∧ q.Safe settings resource o := by
  simp only [Program.compile, Recorded.result_bind, except_bind_ok_iff, Recorded.result_silent,
    Recorded.result_mapError, mapError_ok_iff, Program.task, bind_ok_iff, pure_ok_iff] at compiled
  obtain ⟨t, ⟨resource, named, text, _, filter, _, order, ordered, rfl⟩, compiled⟩ := compiled
  have own := checked.resources _ (Settings.resource_ok named)
  obtain ⟨predicate, limit, orderBy⟩ := Query.predicate_safe compiled own.named
  obtain ⟨column, chosen, rfl⟩ := except_map_ok_iff.mp ordered
  obtain ⟨e, member, sortable, same⟩ := Resource.sortColumn_ok chosen
  refine ⟨resource, named, predicate, ⟨e, member, sortable, own.named e member, ?_⟩, ?_,
    checked.pageSize own⟩
  · rw [orderBy, same]
    exact SortOrder.sql_cases _
  · rw [limit, Page.sql, Page.offset_toNat]
    rfl

/-- A `compile` command that ends well prints a query that is safe, and the columns of its resource
stand in settings files. -/
theorem compile_run_safe {world : Surroundings} {words : List String} {overrides : Overrides}
    {o : CompileOptions}
    (parsed : CommandLine.parse world.environment words = .ok ⟨overrides, .compile o⟩)
    (ended : (Program.run world words).exitCode = 0) :
    ∃ (settings : Settings) (resource : Resource) (q : Query),
      (Settings.load world.files world.home overrides).result = .ok settings ∧
      settings.resource o.resource = .ok resource ∧
      (∀ e ∈ resource.table.entries, Configured world.files o.resource e.2.column) ∧
      (Program.run world words).stdout = q.toJson.pretty ++ "\n" ∧
      q.Safe settings resource o := by
  simp only [Program.run, parsed] at ended ⊢
  cases performed : (Program.perform world ⟨overrides, .compile o⟩).result with
  | error e =>
    rw [performed] at ended
    cases ended
  | ok lines =>
    simp only [Program.perform, Program.print, Recorded.result_bind, except_bind_ok_iff,
      Recorded.result_mapError, mapError_ok_iff, Recorded.result_pure, Except.ok.injEq]
      at performed
    obtain ⟨_, _, settings, loaded, q, compiled, rfl⟩ := performed
    obtain ⟨resource, named, safe⟩ := Program.compile_safe (load_checked loaded) compiled
    have present := Settings.resource_ok named
    exact ⟨settings, resource, q, loaded, named,
      fun e member => load_configured loaded present member,
      by simp [Program.Outcome.stdout], safe⟩

/-! ### A run -/

/-- A settings file with one resource, and a filter with a value that looks like a predicate. -/
def sampleWorld : Surroundings where
  files := Files.ofList [("scimsql.json", .ok ("\x7b\"resources\":\x7b\"u\":\x7b\"mappings\":"
    ++ "\x7b\"id\":\x7b\"column\":\"t.id\",\"sortable\":true\x7d\x7d\x7d\x7d\x7d"))]
  input := .ok ("\x7b\"type\":\"attribute\",\"path\":\x7b\"name\":\"id\"\x7d,"
    ++ "\"operator\":\"eq\",\"value\":\"x) or (1 = ?\"\x7d")

theorem sampleWorld_safe :
    CommandLine.parse sampleWorld.environment ["compile", "--resource", "u"] =
      .ok ⟨{}, .compile { resource := "u" }⟩ ∧
    (Program.run sampleWorld ["compile", "--resource", "u"]).exitCode = 0 ∧
    ∃ (settings : Settings) (resource : Resource) (q : Query),
      (Settings.load sampleWorld.files sampleWorld.home {}).result = .ok settings ∧
      settings.resource "u" = .ok resource ∧
      (∀ e ∈ resource.table.entries, Configured sampleWorld.files "u" e.2.column) ∧
      (Program.run sampleWorld ["compile", "--resource", "u"]).stdout = q.toJson.pretty ++ "\n" ∧
      q.Safe settings resource { resource := "u" } :=
  have parsed : CommandLine.parse sampleWorld.environment ["compile", "--resource", "u"] =
      .ok ⟨{}, .compile { resource := "u" }⟩ := by rfl
  have ended : (Program.run sampleWorld ["compile", "--resource", "u"]).exitCode = 0 := by
    decide +kernel
  ⟨parsed, ended, compile_run_safe parsed ended⟩

end ScimQuery
