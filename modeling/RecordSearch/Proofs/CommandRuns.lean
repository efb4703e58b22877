import RecordSearch.Command.Run
import RecordSearch.Proofs.Faults
import RecordSearch.Proofs.Paging

/-!
Runs of the command. What can be wrong at a stage is said for the stage alone, a run fails as the
first stage at fault does, and only a run without any fault prints.

* `Command.Fault` and `Command.stages`: what can be wrong, and the order of the stages;
* `Command.run_error_iff`: a run fails by its first fault;
* `Command.lines_of_run`: what a run without faults prints;
* `Command.outcome_allOrNothing`: what a run leaves behind, for all arguments that make sense.
-/

namespace RecordSearch

namespace JsonRecord

variable {schema : Schema} {text : String} {items : List Json} {records : List JsonRecord}
  {err : WireError}

theorem ofJson_error_iff {raw : Json} :
    ofJson schema raw = .error err ↔ Row.ofJson schema raw = .error err := by
  simp [ofJson, bind_error_iff, pure, Except.pure]

theorem ofJson_ok_iff {raw : Json} {r : JsonRecord} :
    ofJson schema raw = .ok r ↔ ∃ row, Row.ofJson schema raw = .ok row ∧ ⟨raw, row⟩ = r := by
  simp only [ofJson, bind_ok_iff, pure, Except.pure, Except.ok.injEq]

/-- The text is no array of JSON, or an item of it is no record; the first such item counts. -/
theorem readAll_error_iff : readAll schema text = .error err ↔
    (Json.read? text = none ∧ .notJson = err) ∨
      (∃ j, Json.read? text = some j ∧ (∀ items, j ≠ .array items) ∧ .malformed .records = err) ∨
      ∃ items, Json.read? text = some (.array items) ∧
        IsFirstFault (fun j e => Row.ofJson schema j = .error e) items err := by
  rw [readAll]
  split
  · next items h => simp [h, mapM_error_iff, ofJson_error_iff]
  · next j hj h =>
    have hne : ∀ items, j ≠ .array items := hj
    simp [h, hne]
  · next h => simp [h]

theorem readAll_ok_iff : readAll schema text = .ok records ↔
    ∃ items, Json.read? text = some (.array items) ∧
      items.mapM (ofJson schema) = .ok records := by
  rw [readAll]
  split
  · next items h => simp [h]
  · next j hj h =>
    have hne : ∀ items, j ≠ .array items := hj
    simp [h, hne]
  · next h => simp [h]

end JsonRecord

/-- Whether the item is a record with a row that the expression accepts. -/
def Expression.acceptsJson (schema : Schema) (e : Expression) (j : Json) : Bool :=
  match Row.ofJson schema j with
  | .ok row => e.evaluate row
  | .error _ => false

/-- All items, or those of the page. -/
def Page.cut {α : Type} (page : Option Page) (items : List α) : List α :=
  page.elim items fun p => p.slice items

theorem Page.map_cut {α β : Type} (f : α → β) (page : Option Page) (items : List α) :
    (cut page items).map f = cut page (items.map f) := by
  cases page with
  | none => rfl
  | some p => simp only [cut, Option.elim_some, slice, List.map_take, List.map_drop]

theorem Selection.matched_ofPage {α : Type} (accepts : α → Bool) (page : Option Page)
    (records : List α) : (ofPage accepts page records).matched =
      Page.cut page (records.filter accepts) := by
  cases page with
  | none => rfl
  | some p => exact matched_window accepts p.offset p.limit records

/-- The accepted records were read from the accepted items. -/
theorem JsonRecord.map_raw_filter {schema : Schema} (e : Expression) {items : List Json}
    {records : List JsonRecord} (h : items.mapM (ofJson schema) = .ok records) :
    (records.filter fun r => e.evaluate r.row).map (·.raw) =
      items.filter (e.acceptsJson schema) := by
  induction items generalizing records with
  | nil =>
    obtain rfl : [] = records := Except.ok.inj h
    rfl
  | cons j rest ih =>
    obtain ⟨r, hr, others, hothers, rfl⟩ := mapM_cons_ok_iff.1 h
    obtain ⟨row, hrow, rfl⟩ := ofJson_ok_iff.1 hr
    have haccepts : e.acceptsJson schema j = e.evaluate row := by
      rw [Expression.acceptsJson, hrow]
    rw [List.filter_cons, List.filter_cons, haccepts, ← ih hothers]
    cases e.evaluate row <;> rfl

namespace Command

/-- The stages at which a run can fail. -/
inductive Stage where
  | schema
  | searchText
  | search
  | plan
  | recordsOption
  | recordsText
  | records
  | compile

/-- A search is either explained or applied to records. -/
def stages (o : Options) : List Stage :=
  .schema :: .searchText :: .search ::
    if o.explain then [.plan] else [.recordsOption, .recordsText, .records, .compile]

section Inputs

variable (o : Options) (src : Sources)

def searchSource : Source := if o.search = "-" then src.stdin else src.file o.search

def HasSchema (schema : Schema) : Prop :=
  ∃ text, src.file o.schema = .ok text ∧ Schema.ofText text = .ok schema

def HasSearch (s : Search) : Prop :=
  ∃ text, searchSource o src = .ok text ∧ Search.ofText text = .ok s

def HasRecordsText (text : String) : Prop :=
  ∃ path, o.records = some path ∧ src.file path = .ok text

/-- The records are an array of these items, whether or not they fit the schema. -/
def HasItems (items : List Json) : Prop :=
  ∃ text, HasRecordsText o src text ∧ Json.read? text = some (.array items)

def HasRecords (schema : Schema) (records : List JsonRecord) : Prop :=
  ∃ text, HasRecordsText o src text ∧ JsonRecord.readAll schema text = .ok records

/-- What is wrong at a stage, and the causes that are named. Each fault stands for itself: there is
a schema and a search where they do not go together, and items where one of them is no record. -/
inductive Fault : Stage → Failure → Prop
  | noSchemaText {reason : String} (h : src.file o.schema = .error reason) :
      Fault .schema ["Failed to load schema " ++ o.schema, "IO error: " ++ reason, reason]
  | schema {text : String} {err : WireError} (htext : src.file o.schema = .ok text)
      (h : Schema.ofText text = .error err) :
      Fault .schema (("Failed to load schema " ++ o.schema) :: err.chain)
  | noInput {reason : String} (ho : o.search = "-") (h : src.stdin = .error reason) :
      Fault .searchText ["Failed to read search from stdin", reason]
  | noSearchText {reason : String} (ho : o.search ≠ "-") (h : src.file o.search = .error reason) :
      Fault .searchText ["Failed to read search file " ++ o.search, reason]
  | search {text : String} {err : WireError} (htext : searchSource o src = .ok text)
      (h : Search.ofText text = .error err) : Fault .search ("Failed to parse search" :: err.chain)
  | plan {schema : Schema} {s : Search} {err : QueryError} (hschema : HasSchema o src schema)
      (hs : HasSearch o src s) (h : s.plan schema = .error err) :
      Fault .plan ["Failed to plan search", err.message]
  | noRecordsOption (h : o.records = none) :
      Fault .recordsOption ["--records is required unless --explain is given"]
  | noRecordsText {path reason : String} (ho : o.records = some path)
      (h : src.file path = .error reason) :
      Fault .recordsText ["Failed to read records " ++ path, reason]
  | recordsNotJson {text : String} (htext : HasRecordsText o src text)
      (h : Json.read? text = none) :
      Fault .records ("Failed to load records" :: WireError.chain .notJson)
  | recordsNotArray {text : String} {j : Json} (htext : HasRecordsText o src text)
      (hj : Json.read? text = some j) (h : ∀ items, j ≠ .array items) :
      Fault .records ("Failed to load records" :: WireError.chain (.malformed .records))
  | record {schema : Schema} {items : List Json} {err : WireError}
      (hschema : HasSchema o src schema) (hitems : HasItems o src items)
      (h : IsFirstFault (fun j e => Row.ofJson schema j = .error e) items err) :
      Fault .records ("Failed to load records" :: err.chain)
  | compile {schema : Schema} {s : Search} {err : QueryError} (hschema : HasSchema o src schema)
      (hs : HasSearch o src s) (h : s.plan schema = .error err) :
      Fault .compile ["Failed to compile search", err.message]

end Inputs

variable {o : Options} {src : Sources} {schema : Schema} {s : Search} {text : String}
  {items : List Json} {records : List JsonRecord} {report : Report} {f : Failure} {e : Expression}

theorem HasSchema.unique {other : Schema} (h : HasSchema o src schema)
    (h' : HasSchema o src other) : schema = other :=
  unique_of_ok h h'

theorem HasSearch.unique {other : Search} (h : HasSearch o src s) (h' : HasSearch o src other) :
    s = other :=
  unique_of_ok h h'

theorem HasRecordsText.unique {other : String} (h : HasRecordsText o src text)
    (h' : HasRecordsText o src other) : text = other := by
  obtain ⟨path, hpath, h⟩ := h
  obtain ⟨path', hpath', h'⟩ := h'
  obtain rfl := Option.some.inj (hpath.symm.trans hpath')
  exact Except.ok.inj (h.symm.trans h')

/-! Each stage gives what it reads, or fails by its fault. -/

theorem readSchema_ok_iff : readSchema src o.schema = .ok schema ↔ HasSchema o src schema := by
  simp only [readSchema, mapError_ok_iff, bind_ok_iff, HasSchema]

theorem readSchema_error_iff : readSchema src o.schema = .error f ↔ Fault o src .schema f := by
  rw [readSchema, mapError_error_iff]
  constructor
  · rintro ⟨err, h, rfl⟩
    rcases bind_error_iff.1 h with h | ⟨text, htext, h⟩
    · obtain ⟨reason, hreason, rfl⟩ := mapError_error_iff.1 h
      exact .noSchemaText hreason
    · exact .schema (mapError_ok_iff.1 htext) h
  · intro h
    cases h with
    | noSchemaText h => exact ⟨.unreadable _, by rw [h]; rfl, rfl⟩
    | schema htext h => exact ⟨_, by rw [htext]; exact h, rfl⟩

theorem readSearchText_ok_iff :
    readSearchText src o.search = .ok text ↔ searchSource o src = .ok text := by
  rw [readSearchText, searchSource]
  split <;> rw [mapError_ok_iff]

theorem readSearchText_error_iff :
    readSearchText src o.search = .error f ↔ Fault o src .searchText f := by
  rw [readSearchText]
  constructor
  · intro h
    split at h
    · next ho =>
      obtain ⟨reason, hreason, rfl⟩ := mapError_error_iff.1 h
      exact .noInput ho hreason
    · next ho =>
      obtain ⟨reason, hreason, rfl⟩ := mapError_error_iff.1 h
      exact .noSearchText ho hreason
  · intro h
    cases h with
    | noInput ho h => rw [if_pos ho, h]; rfl
    | noSearchText ho h => rw [if_neg ho, h]; rfl

theorem readSearch_ok_iff (htext : searchSource o src = .ok text) :
    readSearch text = .ok s ↔ HasSearch o src s := by
  rw [readSearch, mapError_ok_iff, HasSearch, htext]
  simp only [Except.ok.injEq, exists_eq_left']

theorem readSearch_error_iff (htext : searchSource o src = .ok text) :
    readSearch text = .error f ↔ Fault o src .search f := by
  rw [readSearch, mapError_error_iff]
  constructor
  · rintro ⟨err, h, rfl⟩
    exact .search htext h
  · intro h
    cases h with
    | search htext' h =>
      obtain rfl := Except.ok.inj (htext.symm.trans htext')
      exact ⟨_, h, rfl⟩

theorem explain_ok_iff : explain s schema = .ok report ↔
    ∃ e, s.plan schema = .ok e ∧ ⟨[e.display], s.planMessages schema⟩ = report := by
  rw [explain]
  split <;> simp [*]

theorem explain_error_iff (hschema : HasSchema o src schema) (hs : HasSearch o src s) :
    explain s schema = .error f ↔ Fault o src .plan f := by
  rw [explain]
  constructor
  · intro h
    split at h
    · cases h
    · next err herr =>
      obtain rfl := Except.error.inj h
      exact .plan hschema hs herr
  · intro h
    cases h with
    | plan hschema' hs' h =>
      obtain rfl := hschema.unique hschema'
      obtain rfl := hs.unique hs'
      simp only [h]

theorem select_of_plan (h : s.plan schema = .ok e) (page : Option Page)
    (records : List JsonRecord) :
    ∃ log, select s schema page records =
      .ok ⟨(Page.cut page (records.filter fun r => e.evaluate r.row)).map fun r => r.raw.text,
        log⟩ := by
  rw [select, Search.select_of_compile (Search.compile_of_plan h)]
  simp only [Selection.matched_ofPage, Expression.predicate_eq_evaluate]
  exact ⟨_, rfl⟩

theorem select_of_plan_error {err : QueryError} (h : s.plan schema = .error err)
    (page : Option Page) : select s schema page records =
      .error ["Failed to compile search", err.message] := by
  rw [select, Search.select_of_compile_error (Search.compile_of_plan_error h)]

theorem select_error_iff (hschema : HasSchema o src schema) (hs : HasSearch o src s) :
    select s schema o.page records = .error f ↔ Fault o src .compile f := by
  constructor
  · intro h
    cases hplan : s.plan schema with
    | ok e =>
      obtain ⟨log, hselect⟩ := select_of_plan hplan o.page records
      cases hselect.symm.trans h
    | error err =>
      obtain rfl := Except.error.inj ((select_of_plan_error hplan o.page).symm.trans h)
      exact .compile hschema hs hplan
  · intro h
    cases h with
    | compile hschema' hs' h =>
      obtain rfl := hschema.unique hschema'
      obtain rfl := hs.unique hs'
      exact select_of_plan_error h o.page

theorem recordsOption_error_iff : Fault o src .recordsOption f ↔
    o.records = none ∧ ["--records is required unless --explain is given"] = f := by
  constructor
  · intro h
    cases h with
    | noRecordsOption h => exact ⟨h, rfl⟩
  · rintro ⟨h, rfl⟩
    exact .noRecordsOption h

theorem recordsText_error_iff {path : String} (ho : o.records = some path) :
    (src.file path).mapError (fun reason => ["Failed to read records " ++ path, reason]) =
      .error f ↔ Fault o src .recordsText f := by
  rw [mapError_error_iff]
  constructor
  · rintro ⟨reason, h, rfl⟩
    exact .noRecordsText ho h
  · intro h
    cases h with
    | noRecordsText ho' h =>
      obtain rfl := Option.some.inj (ho.symm.trans ho')
      exact ⟨_, h, rfl⟩

theorem records_error_iff (hschema : HasSchema o src schema)
    (htext : HasRecordsText o src text) :
    ((JsonRecord.readAll schema text).mapError fun e => "Failed to load records" :: e.chain) =
      .error f ↔ Fault o src .records f := by
  rw [mapError_error_iff]
  simp only [JsonRecord.readAll_error_iff]
  constructor
  · rintro ⟨err, ⟨h, rfl⟩ | ⟨j, hj, h, rfl⟩ | ⟨items, hitems, h⟩, rfl⟩
    · exact .recordsNotJson htext h
    · exact .recordsNotArray htext hj h
    · exact .record hschema ⟨text, htext, hitems⟩ h
  · intro h
    cases h with
    | recordsNotJson htext' h =>
      obtain rfl := htext.unique htext'
      exact ⟨_, .inl ⟨h, rfl⟩, rfl⟩
    | recordsNotArray htext' hj h =>
      obtain rfl := htext.unique htext'
      exact ⟨_, .inr (.inl ⟨_, hj, h, rfl⟩), rfl⟩
    | record hschema' hitems h =>
      obtain rfl := hschema.unique hschema'
      obtain ⟨text', htext', hitems⟩ := hitems
      obtain rfl := htext.unique htext'
      exact ⟨_, .inr (.inr ⟨_, hitems, h⟩), rfl⟩

/-- **A run fails by its first fault.** -/
theorem run_error_iff : run o src = .error f ↔ IsFirstFault (Fault o src) (stages o) f := by
  rw [run, stages]
  -- Each stage is left with what it has read, which is what the faults of the later ones are about.
  refine bind_error_iff_isFirstFault (fun _ => readSchema_error_iff) fun schema hschema => ?_
  rw [readSchema_ok_iff] at hschema
  refine bind_error_iff_isFirstFault (fun _ => readSearchText_error_iff) fun text htext => ?_
  rw [readSearchText_ok_iff] at htext
  refine bind_error_iff_isFirstFault (fun _ => readSearch_error_iff htext) fun s hs => ?_
  rw [readSearch_ok_iff htext] at hs
  split
  · rw [isFirstFault_singleton_iff, explain_error_iff hschema hs]
  rw [isFirstFault_cons_iff]
  simp only [recordsOption_error_iff]
  cases ho : o.records with
  | none => simp [throw, throwThe, MonadExceptOf.throw]
  | some path =>
    simp only [reduceCtorEq, false_and, not_false_eq_true, implies_true, true_and, false_or]
    rw [readRecords, bind_assoc]
    refine bind_error_iff_isFirstFault (fun _ => recordsText_error_iff ho) fun text htext => ?_
    have htext : HasRecordsText o src text := ⟨path, ho, mapError_ok_iff.1 htext⟩
    refine bind_error_iff_isFirstFault (fun _ => records_error_iff hschema htext) ?_
    intro records _
    rw [isFirstFault_singleton_iff, select_error_iff hschema hs]

theorem select_of_run_iff :
    (do
      let some path := o.records | throw ["--records is required unless --explain is given"]
      let records ← readRecords src schema path
      select s schema o.page records : Except Failure Report) = .ok report ↔
      ∃ records, HasRecords o src schema records ∧ select s schema o.page records = .ok report := by
  cases ho : o.records with
  | none => simp [HasRecords, HasRecordsText, ho, throw, throwThe, MonadExceptOf.throw]
  | some path =>
    simp only [readRecords, bind_ok_iff, mapError_ok_iff, HasRecords, HasRecordsText, ho,
      Option.some.injEq, exists_eq_left']

theorem run_ok_iff : run o src = .ok report ↔ ∃ schema s, HasSchema o src schema ∧
    HasSearch o src s ∧ if o.explain then explain s schema = .ok report else
      ∃ records, HasRecords o src schema records ∧
        select s schema o.page records = .ok report := by
  constructor
  · intro h
    obtain ⟨schema, hschema, h⟩ := bind_ok_iff.1 h
    obtain ⟨text, htext, h⟩ := bind_ok_iff.1 h
    obtain ⟨s, hs, h⟩ := bind_ok_iff.1 h
    rw [readSearchText_ok_iff] at htext
    refine ⟨schema, s, readSchema_ok_iff.1 hschema, (readSearch_ok_iff htext).1 hs, ?_⟩
    split
    · next ho => rwa [if_pos ho] at h
    · next ho =>
      rw [if_neg ho] at h
      exact select_of_run_iff.1 h
  · rintro ⟨schema, s, hschema, ⟨text, htext, hs⟩, h⟩
    refine bind_ok_iff.2 ⟨schema, readSchema_ok_iff.2 hschema, ?_⟩
    refine bind_ok_iff.2 ⟨text, readSearchText_ok_iff.2 htext, ?_⟩
    refine bind_ok_iff.2 ⟨s, (readSearch_ok_iff htext).2 ⟨text, htext, hs⟩, ?_⟩
    split at h
    · next ho => rwa [if_pos ho]
    · next ho =>
      rw [if_neg ho]
      exact select_of_run_iff.2 h

/-- The lines are the accepted items as they were read. -/
theorem lines_of_run (ho : o.explain = false) (h : run o src = .ok report) :
    ∃ schema s items e, HasSchema o src schema ∧ HasSearch o src s ∧ HasItems o src items ∧
      (∀ j ∈ items, ∃ row, Row.ofJson schema j = .ok row) ∧ s.plan schema = .ok e ∧
      report.lines = (Page.cut o.page (items.filter (e.acceptsJson schema))).map Json.text := by
  obtain ⟨schema, s, hschema, hs, h⟩ := run_ok_iff.1 h
  rw [ho, if_neg Bool.false_ne_true] at h
  obtain ⟨records, ⟨text, htext, hall⟩, hselect⟩ := h
  obtain ⟨items, hitems, hrecords⟩ := JsonRecord.readAll_ok_iff.1 hall
  cases hplan : s.plan schema with
  | error err => cases (select_of_plan_error hplan o.page).symm.trans hselect
  | ok e =>
    obtain ⟨log, hlines⟩ := select_of_plan hplan o.page records
    obtain rfl := Except.ok.inj (hlines.symm.trans hselect)
    refine ⟨schema, s, items, e, hschema, hs, ⟨text, htext, hitems⟩, ?_, hplan, ?_⟩
    · intro j hj
      obtain ⟨r, hr⟩ := exists_mapM_ok_iff.1 ⟨_, hrecords⟩ j hj
      obtain ⟨row, hrow, -⟩ := JsonRecord.ofJson_ok_iff.1 hr
      exact ⟨row, hrow⟩
    · rw [← JsonRecord.map_raw_filter e hrecords, ← Page.map_cut, List.map_map]
      rfl

theorem run_explain_ok_iff (ho : o.explain = true) : (∃ report, run o src = .ok report) ↔
    ∃ schema s e, HasSchema o src schema ∧ HasSearch o src s ∧ s.plan schema = .ok e := by
  simp only [run_ok_iff, ho, if_true, explain_ok_iff]
  constructor
  · rintro ⟨report, schema, s, hschema, hs, e, he, -⟩
    exact ⟨schema, s, e, hschema, hs, he⟩
  · rintro ⟨schema, s, e, hschema, hs, he⟩
    exact ⟨_, schema, s, hschema, hs, e, he, rfl⟩

section Outcomes

variable {env : String → Option String} {args : List String}

theorem outcome_of_run_error (h : Options.ofArguments? env args = some o)
    (hrun : run o src = .error f) : outcome env args src = ⟨2, [], some f.display, []⟩ := by
  simp only [outcome, h, hrun, exitCode]

theorem outcome_of_run_ok (h : Options.ofArguments? env args = some o)
    (hrun : run o src = .ok report) : outcome env args src =
      ⟨if report.lines.isEmpty then 1 else 0, report.lines, none,
        visibleLog o.debug report.log⟩ := by
  simp only [outcome, h, hrun, exitCode]

theorem exit_eq_two_iff (h : Options.ofArguments? env args = some o) :
    (outcome env args src).exit = 2 ↔ ∃ f, run o src = .error f := by
  cases hrun : run o src with
  | error f => simp [outcome_of_run_error h hrun]
  | ok report =>
    rw [outcome_of_run_ok h hrun]
    cases report.lines.isEmpty <;> simp

/-- What a run leaves behind: all that the options ask for, or one cause and nothing else. -/
structure AllOrNothing (o : Options) (src : Sources) (result : Outcome) : Prop where
  /-- The first stage at fault leaves its causes and nothing else. -/
  failed : ∀ f, IsFirstFault (Fault o src) (stages o) f → result = ⟨2, [], some f.display, []⟩
  /-- Exit code 2 stands for a fault. -/
  faulty : result.exit = 2 → ∃ f, IsFirstFault (Fault o src) (stages o) f
  /-- Exit code 0 stands for at least one line, and the other two for none. -/
  exit_code : result.exit = 0 ∧ result.lines ≠ [] ∧ result.error = none ∨
    result.exit = 1 ∧ result.lines = [] ∧ result.error = none ∨
    result.exit = 2 ∧ result.lines = [] ∧ result.error ≠ none
  /-- The lines are the items of the records that the plan accepts, in their order and cut to the
  page. -/
  selected : o.explain = false → result.exit ≠ 2 → ∃ schema s items e,
    HasSchema o src schema ∧ HasSearch o src s ∧ HasItems o src items ∧
    (∀ j ∈ items, ∃ row, Row.ofJson schema j = .ok row) ∧ s.plan schema = .ok e ∧
    result.lines = (Page.cut o.page (items.filter (e.acceptsJson schema))).map Json.text
  /-- One bad record is enough, whatever the others are. -/
  bad_record : o.explain = false → ∀ schema items, HasSchema o src schema → HasItems o src items →
    (∃ j ∈ items, ∃ err, Row.ofJson schema j = .error err) → result.exit = 2
  /-- So is one bad condition, whatever the records are. -/
  bad_condition : ∀ schema s, HasSchema o src schema → HasSearch o src s →
    (∃ c ∈ s.leaves, ∃ err, c.bind schema s.format = .error err) → result.exit = 2
  /-- A search is explained if it has a plan. -/
  explained : o.explain = true → (result.exit ≠ 2 ↔
    ∃ schema s e, HasSchema o src schema ∧ HasSearch o src s ∧ s.plan schema = .ok e)
  explanation : o.explain = true → ∀ schema s e, HasSchema o src schema → HasSearch o src s →
    s.plan schema = .ok e → result.exit = 0 ∧ result.lines = [e.display]
  /-- What can be explained can be compiled, in every run with this schema and this search. -/
  compiled : o.explain = true → result.exit ≠ 2 → ∀ other otherSrc,
    (∀ schema, HasSchema other otherSrc schema → HasSchema o src schema) →
    (∀ s, HasSearch other otherSrc s → HasSearch o src s) → ∀ f, ¬Fault other otherSrc .compile f

theorem exit_of_fault (h : Options.ofArguments? env args = some o) {stage : Stage}
    (hstage : stage ∈ stages o) (hfault : Fault o src stage f) :
    (outcome env args src).exit = 2 := by
  obtain ⟨first, hfirst⟩ := exists_isFirstFault_iff.2 ⟨stage, hstage, f, hfault⟩
  exact (exit_eq_two_iff h).2 ⟨first, run_error_iff.2 hfirst⟩

theorem exists_run_ok (h : Options.ofArguments? env args = some o)
    (hexit : (outcome env args src).exit ≠ 2) : ∃ report, run o src = .ok report := by
  rw [exists_ok_iff]
  intro f hf
  exact hexit ((exit_eq_two_iff h).2 ⟨f, hf⟩)

/-- **All or nothing.** Whatever the files, the input and the arguments, as long as these make
sense: a run fails as the first stage at fault does, with exit code 2, its causes and no line.
Otherwise it prints the records that the plan of the search accepts on their rows, in the order of
the file and up to the page, or the explanation of the search. -/
theorem outcome_allOrNothing (h : Options.ofArguments? env args = some o) (src : Sources) :
    AllOrNothing o src (outcome env args src) where
  failed f hf := outcome_of_run_error h (run_error_iff.2 hf)
  faulty hexit := by
    obtain ⟨f, hf⟩ := (exit_eq_two_iff h).1 hexit
    exact ⟨f, run_error_iff.1 hf⟩
  exit_code := by
    cases hrun : run o src with
    | error f => simp [outcome_of_run_error h hrun]
    | ok report =>
      rw [outcome_of_run_ok h hrun]
      cases report.lines <;> simp
  selected ho hexit := by
    obtain ⟨report, hrun⟩ := exists_run_ok h hexit
    rw [outcome_of_run_ok h hrun]
    exact lines_of_run ho hrun
  bad_record ho schema items hschema hitems hbad := by
    obtain ⟨err, herr⟩ := exists_isFirstFault_iff.2 hbad
    refine exit_of_fault h ?_ (.record hschema hitems herr)
    simp [stages, ho]
  bad_condition schema s hschema hs hbad := by
    obtain ⟨err, herr⟩ := exists_isFirstFault_iff.2 hbad
    rw [← Search.plan_eq_error_iff] at herr
    cases ho : o.explain with
    | true =>
      refine exit_of_fault h ?_ (.plan hschema hs herr)
      simp [stages, ho]
    | false =>
      refine exit_of_fault h ?_ (.compile hschema hs herr)
      simp [stages, ho]
  explained ho := by
    rw [← run_explain_ok_iff ho, ne_eq, exit_eq_two_iff h, exists_ok_iff, not_exists]
  explanation ho schema s e hschema hs he := by
    have hrun := run_ok_iff.2 ⟨schema, s, hschema, hs, by
      rw [if_pos ho]; exact explain_ok_iff.2 ⟨e, he, rfl⟩⟩
    rw [outcome_of_run_ok h hrun]
    exact ⟨rfl, rfl⟩
  compiled ho hexit other otherSrc hsameSchema hsameSearch f hfault := by
    obtain ⟨schema, s, e, hschema, hs, he⟩ := (run_explain_ok_iff ho).1 (exists_run_ok h hexit)
    cases hfault with
    | compile hschema' hs' herr =>
      obtain rfl := hschema.unique (hsameSchema _ hschema')
      obtain rfl := hs.unique (hsameSearch _ hs')
      cases he.symm.trans herr

/-- The second item of the file is no record, so the first is not printed either. -/
theorem outcome_allOrNothing_item :
    let env : String → Option String := fun _ => none
    let args := ["--schema", "s.json", "-r", "r.json"]
    let src : Sources := ⟨fun path => if path = "s.json" then "{}" else "[{},7]", "{}"⟩
    let o : Options := ⟨"-", "s.json", some "r.json", none, false, false⟩
    Options.ofArguments? env args = some o ∧ AllOrNothing o src (outcome env args src) ∧
      outcome env args src = ⟨2, [], some
        "Failed to load records: Malformed input: a record must be a JSON object", []⟩ := by
  intro env args src o
  have h : Options.ofArguments? env args = some o := by rfl
  have hrun : run o src =
      .error ["Failed to load records", "Malformed input: a record must be a JSON object"] := by rfl
  have hall := outcome_allOrNothing h src
  exact ⟨h, hall, hall.failed _ (run_error_iff.1 hrun)⟩

end Outcomes

end Command

end RecordSearch
