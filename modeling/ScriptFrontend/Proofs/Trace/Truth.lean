import ScriptFrontend.Proofs.Diagnostic.FaultList
import ScriptFrontend.Trace

/-!
# What traces tell

An observer reads records one after another and keeps two lists: the sections that it is inside of,
and those that are done. `Moment.afterAll` refuses a section that is left before the last one that
was entered. Work that `Closes` some sections can be put into a section and after other work, so
each entry point closes what it enters (`Call.closes`), and what its events and parameters say
agrees with its result (`trace_truthful`). Of the library that makes the records no more is used
than `Tracing.Documented`.
-/

namespace ScriptFrontend.Trace

/-! ## Reading records -/

/-- What an observer knows at some point of a trace. -/
structure Moment where
  /-- The sections that are entered and not left, the innermost first. -/
  inside : List String
  /-- The sections that are left, the last one first. -/
  done : List String
  deriving DecidableEq, Repr

namespace Moment

def start : Moment := ⟨[], []⟩

/-- Only the innermost section can be left. -/
def after (m : Moment) : Record → Option Moment
  | .entered name => some ⟨name :: m.inside, m.done⟩
  | .left name => if m.inside.head? = some name then some ⟨m.inside.tail, name :: m.done⟩ else none
  | .opened _ | .event _ _ _ => some m

def afterAll (m : Moment) (records : List Record) : Option Moment := records.foldlM after m

end Moment

namespace Record

def entered? : Record → Option String
  | entered name => some name
  | _ => none

def fields : Record → List (String × String)
  | opened s => s.fields
  | event _ _ fields => fields
  | _ => []

def message? : Record → Option String
  | event _ _ fields => fields.lookup "message"
  | _ => none

end Record

/-- The names of the sections that are entered. -/
def entries (records : List Record) : List String := records.filterMap Record.entered?

/-- What is said in events. -/
def messages (records : List Record) : List String := records.filterMap Record.message?

/-- The values of a parameter, of sections as well as of events. -/
def values (key : String) (records : List Record) : List String :=
  records.flatMap fun r => (r.fields.filter fun field => field.1 == key).map Prod.snd

/-- The moments at which the message is told. -/
def Moment.told (message : String) (m : Moment) : List Record → List Moment
  | [] => []
  | r :: records =>
    (if r.message? = some message then [m] else []) ++
      match m.after r with
      | some next => next.told message records
      | none => []

/-! ## Entry points -/

inductive Call where
  | tokenize
  | check
  | lex
  | lexWithReports
  deriving DecidableEq, Repr

namespace Call

def records (tracing : Tracing) (name source : String) : Call → List Record
  | tokenize => (Traced.tokenize source tracing).records
  | check => (Traced.check (ScriptFrontend.tokenize source) tracing).records
  | lex => (Traced.lex source tracing).records
  | lexWithReports => (Traced.lexWithReports name source tracing).records

/-- The sections of the call, each inside the one before. -/
def sections : Call → List String
  | tokenize => ["tokenize"]
  | check => ["check"]
  | lex => ["lex", "check"]
  | lexWithReports => ["lex_with_reports", "lex", "check"]

end Call

/-- What the entry points answer when these are the faults of the source. -/
structure Answers (tracing : Tracing) (name source : String) (faults : List Diagnostic) : Prop where
  tokenize : (Traced.tokenize source tracing).result = ScriptFrontend.tokenize source
  check : (Traced.check (ScriptFrontend.tokenize source) tracing).result = faults
  lex : (Traced.lex source tracing).result =
    if faults = [] then .ok (ScriptFrontend.tokenize source) else .error faults
  lexWithReports : ∃ reports : List Report, reports.length = faults.length ∧
    (Traced.lexWithReports name source tracing).result =
      if faults = [] then .ok (ScriptFrontend.tokenize source) else .error reports

/-- The records of the call tell what it does. -/
structure Truthful (tracing : Tracing) (name source : String) (call : Call) : Prop where
  entered : entries (call.records tracing name source) = call.sections
  /-- All sections are left in the end, the inner ones before the outer ones. -/
  nested : Moment.start.afterAll (call.records tracing name source) = some ⟨[], call.sections⟩
  source_len : values "source_len" (call.records tracing name source) =
    (call.sections.filter (· != "check")).map fun _ => source.utf8ByteSize.repr
  token_count : values "token_count" (call.records tracing name source) =
    (call.sections.filter (· == "check")).map fun _ => (tokenize source).length.repr
  /-- Each event has a count, which is that of the faults. -/
  error_count : values "error_count" (call.records tracing name source) =
    (messages (call.records tracing name source)).map fun _ =>
      (Diagnostic.check (tokenize source)).length.repr
  /-- Faults are told inside of all sections, the innermost of them `check`. -/
  found : Moment.start.told "lexical diagnostics found" (call.records tracing name source) =
    if "check" ∈ call.sections ∧ Diagnostic.check (tokenize source) ≠ [] then
      [⟨call.sections.reverse, []⟩]
    else []
  /-- That the source is rejected is told when `lex` is done, and the call is not. -/
  rejecting : Moment.start.told "rejecting source" (call.records tracing name source) =
    if call = .lexWithReports ∧ (Traced.lexWithReports name source tracing).result.isOk = false then
      [⟨["lex_with_reports"], ["lex", "check"]⟩]
    else []

/-! ## Pieces of traces -/

section

variable {rs ss : List Record} (key : String)

@[simp] theorem entries_nil : entries [] = [] := rfl

@[simp] theorem messages_nil : messages [] = [] := rfl

@[simp] theorem values_nil : values key [] = [] := rfl

@[simp] theorem entries_append : entries (rs ++ ss) = entries rs ++ entries ss :=
  List.filterMap_append

@[simp] theorem messages_append : messages (rs ++ ss) = messages rs ++ messages ss :=
  List.filterMap_append

@[simp] theorem values_append : values key (rs ++ ss) = values key rs ++ values key ss :=
  List.flatMap_append

end

/-- The event that tells of the faults, unless there are none. -/
def tellFaults (tracing : Tracing) (component : Component) (message : String)
    (faults : List Diagnostic) : List Record :=
  if faults.isEmpty then [] else tracing.faultEvent component message faults

namespace Tracing.Documented

variable {α : Type} {tracing : Tracing} (h : tracing.Documented) (key message : String)
  (s : Section) (work : Traced α) (component : Component) (faults : List Diagnostic)

include h

theorem records_within : (Traced.within tracing s work).records =
    [.opened s, .entered s.name] ++ work.records ++ [.left s.name] :=
  h.instrument_eq s work.records

theorem tellFaults_eq : tellFaults tracing component message faults =
    if faults = [] then []
    else [.event .debug component [("message", message), ("error_count", faults.length.repr)]] := by
  rw [tellFaults, faultEvent, h.event_eq]
  cases faults <;> rfl

@[simp] theorem entries_within :
    entries (Traced.within tracing s work).records = s.name :: entries work.records := by
  rw [h.records_within, entries_append, entries_append]
  exact congrArg (s.name :: ·) (List.append_nil _)

@[simp] theorem messages_within :
    messages (Traced.within tracing s work).records = messages work.records := by
  rw [h.records_within, messages_append, messages_append]
  exact List.append_nil _

@[simp] theorem values_within : values key (Traced.within tracing s work).records =
    (s.fields.filter fun field => field.1 == key).map Prod.snd ++ values key work.records := by
  rw [h.records_within]
  simp [values, Record.fields]

@[simp] theorem entries_tellFaults :
    entries (tellFaults tracing component message faults) = [] := by
  rw [h.tellFaults_eq]
  split <;> rfl

@[simp] theorem messages_tellFaults : messages (tellFaults tracing component message faults) =
    if faults = [] then [] else [message] := by
  rw [h.tellFaults_eq]
  split <;> rfl

@[simp] theorem values_tellFaults : values key (tellFaults tracing component message faults) =
    if faults = [] then [] else
      ([("message", message), ("error_count", faults.length.repr)].filter fun field =>
        field.1 == key).map Prod.snd := by
  rw [h.tellFaults_eq]
  split
  · rfl
  · exact List.append_nil _

end Tracing.Documented

/-! ## Moments -/

/-- The records can stand anywhere, and these sections are done after them. -/
def Closes (records : List Record) (names : List String) : Prop :=
  ∀ m : Moment, m.afterAll records = some ⟨m.inside, names ++ m.done⟩

section

variable {α : Type} {rs ss : List Record} {names names' : List String} {tracing : Tracing}

namespace Moment

theorem afterAll_append {m next : Moment} (h : m.afterAll rs = some next) :
    m.afterAll (rs ++ ss) = next.afterAll ss := by
  rw [afterAll, List.foldlM_append, ← afterAll, h]
  rfl

theorem told_append {m next : Moment} (h : m.afterAll rs = some next) (message : String) :
    m.told message (rs ++ ss) = m.told message rs ++ next.told message ss := by
  induction rs generalizing m with
  | nil =>
    obtain rfl := Option.some.inj h
    rfl
  | cons r rs ih =>
    rw [afterAll, List.foldlM_cons] at h
    obtain ⟨middle, hafter, hrest⟩ := Option.bind_eq_some_iff.mp h
    rw [List.cons_append, told, told, hafter]
    dsimp only
    rw [ih hrest, List.append_assoc]

theorem told_tellFaults (hdoc : tracing.Documented) (message : String) (m : Moment)
    (component : Component) (other : String) (faults : List Diagnostic) :
    m.told message (tellFaults tracing component other faults) =
      if other = message ∧ faults ≠ [] then [m] else [] := by
  rw [hdoc.tellFaults_eq]
  cases faults with
  | nil => simp [told]
  | cons d faults => simp [told, after, Record.message?]

end Moment

namespace Closes

theorem nil : Closes [] [] := fun _ => rfl

theorem append (h : Closes rs names) (h' : Closes ss names') :
    Closes (rs ++ ss) (names' ++ names) := by
  intro m
  rw [Moment.afterAll_append (h m), h', List.append_assoc]

/-- When the work in a section ends, the section is all that has been entered. -/
theorem afterAll_work (h : Closes rs names) (s : Section) (m : Moment) :
    m.afterAll ([.opened s, .entered s.name] ++ rs) =
      some ⟨s.name :: m.inside, names ++ m.done⟩ :=
  (Moment.afterAll_append rfl).trans (h ⟨s.name :: m.inside, m.done⟩)

theorem within (h : Closes rs names) (hdoc : tracing.Documented) (s : Section) (x : α) :
    Closes (Traced.within tracing s ⟨x, rs⟩).records (s.name :: names) := by
  intro m
  rw [hdoc.records_within, Moment.afterAll_append (h.afterAll_work s m)]
  simp [Moment.afterAll, Moment.after]

theorem told_within (h : Closes rs names) (hdoc : tracing.Documented) (s : Section) (x : α)
    (message : String) (m : Moment) :
    m.told message (Traced.within tracing s ⟨x, rs⟩).records =
      Moment.told message ⟨s.name :: m.inside, m.done⟩ rs := by
  rw [hdoc.records_within, Moment.told_append (h.afterAll_work s m), Moment.told_append rfl]
  simp [Moment.told, Moment.after, Record.message?]

theorem tellFaults (hdoc : tracing.Documented) (component : Component) (message : String)
    (faults : List Diagnostic) : Closes (tellFaults tracing component message faults) [] := by
  intro m
  rw [hdoc.tellFaults_eq]
  split <;> rfl

end Closes

end

/-! ## Records of the entry points -/

namespace Call

section

variable (tracing : Tracing) (name source : String)

@[simp] theorem records_tokenize : tokenize.records tracing name source =
    (Traced.within tracing (sourceSection "tokenize" source) ⟨(), []⟩).records := rfl

@[simp] theorem records_check : check.records tracing name source =
    (Traced.within tracing (checkSection (ScriptFrontend.tokenize source))
      ⟨(), tellFaults tracing .diagnostics "lexical diagnostics found"
        (Diagnostic.check (ScriptFrontend.tokenize source))⟩).records := rfl

@[simp] theorem records_lex : lex.records tracing name source =
    (Traced.within tracing (sourceSection "lex" source)
      ⟨(), check.records tracing name source⟩).records := rfl

/-- `lex` ends with an error if there are faults, so the event for its errors tells of them. -/
@[simp] theorem records_lexWithReports : lexWithReports.records tracing name source =
    (Traced.within tracing (frontendSection name source) ⟨(), lex.records tracing name source ++
      tellFaults tracing .frontend "rejecting source"
        (Diagnostic.check (ScriptFrontend.tokenize source))⟩).records := by
  have hlex := (Traced.result_lex source tracing).trans (lex_eq source)
  refine congrArg (tracing.instrument (frontendSection name source)) ?_
  by_cases hnone : Diagnostic.check (ScriptFrontend.tokenize source) = []
  · rw [if_pos hnone] at hlex
    rw [Traced.records_mapError_of_ok hlex, hnone]
    exact (List.append_nil _).symm
  · rw [if_neg hnone] at hlex
    rw [Traced.records_mapError_of_error hlex, tellFaults,
      if_neg (mt List.isEmpty_iff.mp hnone)]
    rfl

end

section

variable {tracing : Tracing} (hdoc : tracing.Documented) (name source : String)

include hdoc

theorem closes_check : Closes (check.records tracing name source) check.sections := by
  rw [records_check]
  exact (Closes.tellFaults hdoc _ _ _).within hdoc _ _

theorem closes_lex : Closes (lex.records tracing name source) lex.sections := by
  rw [records_lex]
  exact (closes_check hdoc name source).within hdoc _ _

theorem closes (call : Call) : Closes (call.records tracing name source) call.sections := by
  cases call with
  | tokenize =>
    rw [records_tokenize]
    exact Closes.nil.within hdoc _ _
  | check => exact closes_check hdoc name source
  | lex => exact closes_lex hdoc name source
  | lexWithReports =>
    rw [records_lexWithReports]
    exact ((closes_lex hdoc name source).append (Closes.tellFaults hdoc _ _ _)).within hdoc _ _

variable (message : String) (m : Moment)

theorem told_tokenize : m.told message (tokenize.records tracing name source) = [] := by
  rw [records_tokenize]
  exact Closes.nil.told_within hdoc _ _ message m

theorem told_check : m.told message (check.records tracing name source) =
    if "lexical diagnostics found" = message ∧
        Diagnostic.check (ScriptFrontend.tokenize source) ≠ [] then
      [⟨"check" :: m.inside, m.done⟩]
    else [] := by
  rw [records_check, (Closes.tellFaults hdoc _ _ _).told_within hdoc, Moment.told_tellFaults hdoc]
  rfl

theorem told_lex : m.told message (lex.records tracing name source) =
    if "lexical diagnostics found" = message ∧
        Diagnostic.check (ScriptFrontend.tokenize source) ≠ [] then
      [⟨"check" :: "lex" :: m.inside, m.done⟩]
    else [] := by
  rw [records_lex, (closes_check hdoc name source).told_within hdoc, told_check hdoc]
  rfl

theorem told_lexWithReports : m.told message (lexWithReports.records tracing name source) =
    (if "lexical diagnostics found" = message ∧
        Diagnostic.check (ScriptFrontend.tokenize source) ≠ [] then
      [⟨"check" :: "lex" :: "lex_with_reports" :: m.inside, m.done⟩]
    else []) ++
    if "rejecting source" = message ∧ Diagnostic.check (ScriptFrontend.tokenize source) ≠ [] then
      [⟨"lex_with_reports" :: m.inside, "lex" :: "check" :: m.done⟩]
    else [] := by
  have hlex := closes_lex hdoc name source
  rw [records_lexWithReports, (hlex.append (Closes.tellFaults hdoc _ _ _)).told_within hdoc,
    Moment.told_append (hlex _), told_lex hdoc, Moment.told_tellFaults hdoc]
  rfl

end

end Call

/-! ## The whole trace -/

theorem answers_check (tracing : Tracing) (name source : String) :
    Answers tracing name source (Diagnostic.check (tokenize source)) where
  tokenize := Traced.result_tokenize source tracing
  check := Traced.result_check _ tracing
  lex := (Traced.result_lex source tracing).trans (lex_eq source)
  lexWithReports := ⟨Report.ofFaults name source (Diagnostic.check (tokenize source)),
    List.length_map _,
    (Traced.result_lexWithReports name source tracing).trans (lexWithReports_eq name source)⟩

theorem isOk_lexWithReports (tracing : Tracing) (name source : String) :
    (Traced.lexWithReports name source tracing).result.isOk = false ↔
      Diagnostic.check (tokenize source) ≠ [] := by
  obtain ⟨reports, -, hresult⟩ := (answers_check tracing name source).lexWithReports
  rw [hresult]
  split
  next h => simp [h, Except.isOk, Except.toBool]
  next h => simp [h, Except.isOk, Except.toBool]

theorem trace_truthful {tracing : Tracing} (hdoc : tracing.Documented) (name source : String) :
    Answers tracing name source (Diagnostic.check (tokenize source)) ∧
      ∀ call, Truthful tracing name source call := by
  refine ⟨answers_check tracing name source, fun call => ?_⟩
  exact {
    entered := by
      cases call <;> simp [hdoc, Call.sections, sourceSection, checkSection, frontendSection]
    nested := (call.closes hdoc name source _).trans (by rw [Moment.start, List.append_nil])
    source_len := by
      -- The side condition of `List.filter_cons_of_pos` would compare two names byte by byte.
      cases call <;>
        simp [-List.filter_cons_of_pos, hdoc, List.filter_cons, Call.sections, sourceSection,
          checkSection, frontendSection]
    token_count := by
      cases call <;> simp [hdoc, Call.sections, sourceSection, checkSection, frontendSection]
    error_count := by
      by_cases hfaults : Diagnostic.check (tokenize source) = [] <;>
        cases call <;> simp [hdoc, hfaults, sourceSection, checkSection, frontendSection]
    found := by
      cases call with
      | tokenize => exact Call.told_tokenize hdoc name source _ _
      | check =>
        rw [Call.told_check hdoc]
        simp [Call.sections, Moment.start]
      | lex =>
        rw [Call.told_lex hdoc]
        simp [Call.sections, Moment.start]
      | lexWithReports =>
        rw [Call.told_lexWithReports hdoc]
        simp [Call.sections, Moment.start]
    rejecting := by
      simp only [isOk_lexWithReports]
      cases call with
      | tokenize => exact Call.told_tokenize hdoc name source _ _
      | check =>
        rw [Call.told_check hdoc]
        simp
      | lex =>
        rw [Call.told_lex hdoc]
        simp
      | lexWithReports =>
        rw [Call.told_lexWithReports hdoc]
        simp [Moment.start] }

/-- The source has a fault, so it is rejected, once `lex` is left. -/
theorem rejecting_tilde : Tracing.full.Documented ∧
    Moment.start.told "rejecting source" (Call.lexWithReports.records .full "script" "~") =
      [⟨["lex_with_reports"], ["lex", "check"]⟩] :=
  ⟨Tracing.documented_full,
    ((trace_truthful Tracing.documented_full "script" "~").2 .lexWithReports).rejecting.trans
      (by decide +kernel)⟩

end ScriptFrontend.Trace
