import ScriptFrontend.Diagnostic

/-!
# Traces

What an observer of the entry points is told, in order: that a section is opened, entered and left,
and single events in between. A `Traced` value is a result with the records of the work that led
to it. The traced entry points have the results of the plain ones (`result_tokenize` and its
companions).

Sections and events are handed to the library `tracing`, and it is that library that makes records
of them. The entry points take it as a parameter, a `Tracing`; what is relied on is
`Tracing.Documented`, which `Tracing.full` satisfies.
-/

namespace ScriptFrontend

namespace Trace

/-- The part of the program that a record comes from. -/
inductive Component where
  | lexer
  | diagnostics
  | frontend
  deriving DecidableEq, Repr

/-- How much detail an observer asks for to see a record. -/
inductive Level where
  | info
  | debug
  deriving DecidableEq, Repr

/-- A named stretch of work with its parameters as text. -/
structure Section where
  name : String
  level : Level
  component : Component
  fields : List (String × String)
  deriving DecidableEq, Repr

inductive Record where
  | opened (s : Section)
  | entered (name : String)
  | left (name : String)
  | event (level : Level) (component : Component) (fields : List (String × String))
  deriving DecidableEq, Repr

/-- The library `tracing` with an observer of what it is told. -/
structure Tracing where
  /-- The records of a function under a section, from those of its body. -/
  instrument : Section → List Record → List Record
  /-- The records of an event. -/
  event : Level → Component → List (String × String) → List Record

/-- What the library documents, for an observer of all levels: a function under a section opens and
enters it when it is called and leaves it when it returns, and an event is told where it occurs. -/
structure Tracing.Documented (tracing : Tracing) : Prop where
  instrument_eq : ∀ (s : Section) (records : List Record), tracing.instrument s records =
    [.opened s, .entered s.name] ++ records ++ [.left s.name]
  event_eq : ∀ (level : Level) (component : Component) (fields : List (String × String)),
    tracing.event level component fields = [.event level component fields]

def Tracing.full : Tracing where
  instrument s records := [.opened s, .entered s.name] ++ records ++ [.left s.name]
  event level component fields := [.event level component fields]

theorem Tracing.documented_full : Tracing.full.Documented := ⟨fun _ _ => rfl, fun _ _ _ => rfl⟩

/-! ## Sections and events of the program -/

/-- A section of the lexer that works on the source; its parameter is the length in bytes. -/
def sourceSection (name : String) (source : String) : Section :=
  ⟨name, .info, .lexer, [("source_len", source.utf8ByteSize.repr)]⟩

def checkSection (tokens : List Token) : Section :=
  ⟨"check", .info, .diagnostics, [("token_count", tokens.length.repr)]⟩

def frontendSection (name source : String) : Section :=
  ⟨"lex_with_reports", .info, .frontend,
    [("name", Text.quote name), ("source_len", source.utf8ByteSize.repr)]⟩

/-- The event that tells of faults, with their number. -/
def Tracing.faultEvent (tracing : Tracing) (component : Component) (message : String)
    (faults : List Diagnostic) : List Record :=
  tracing.event .debug component [("message", message), ("error_count", faults.length.repr)]

end Trace

open Trace

/-- A result with what was recorded on the way to it. -/
structure Traced (α : Type) where
  result : α
  records : List Record

namespace Traced

variable {α ε δ : Type}

/-- Work that is done as one section. -/
def within (tracing : Tracing) (s : Section) (work : Traced α) : Traced α :=
  ⟨work.result, tracing.instrument s work.records⟩

/-- Makes another error of an error by further work; a value is left as it is. -/
def mapError (work : Traced (Except ε α)) (further : ε → Traced δ) : Traced (Except δ α) :=
  match work.result with
  | .ok a => ⟨.ok a, work.records⟩
  | .error e => ⟨.error (further e).result, work.records ++ (further e).records⟩

def tokenize (source : String) (tracing : Tracing := .full) : Traced (List Token) :=
  within tracing (sourceSection "tokenize" source) ⟨ScriptFrontend.tokenize source, []⟩

def check (tokens : List Token) (tracing : Tracing := .full) : Traced (List Diagnostic) :=
  let faults := Diagnostic.check tokens
  within tracing (checkSection tokens)
    ⟨faults, if faults.isEmpty then []
      else tracing.faultEvent .diagnostics "lexical diagnostics found" faults⟩

/-- The tokens are taken without a section of their own. -/
def lex (source : String) (tracing : Tracing := .full) :
    Traced (Except (List Diagnostic) (List Token)) :=
  let tokens := ScriptFrontend.tokenize source
  let checked := check tokens tracing
  within tracing (sourceSection "lex" source)
    ⟨acceptUnless tokens checked.result, checked.records⟩

def lexWithReports (name source : String) (tracing : Tracing := .full) :
    Traced (Except (List Report) (List Token)) :=
  within tracing (frontendSection name source) <|
    (lex source tracing).mapError fun faults =>
      ⟨Report.ofFaults name source faults, tracing.faultEvent .frontend "rejecting source" faults⟩

theorem result_mapError (work : Traced (Except ε α)) (further : ε → Traced δ) :
    (work.mapError further).result = work.result.mapError fun e => (further e).result := by
  unfold mapError
  cases work.result <;> rfl

theorem records_mapError_of_ok {work : Traced (Except ε α)} {a : α} (h : work.result = .ok a)
    (further : ε → Traced δ) : (work.mapError further).records = work.records := by
  rw [mapError, h]

theorem records_mapError_of_error {work : Traced (Except ε α)} {e : ε}
    (h : work.result = .error e) (further : ε → Traced δ) :
    (work.mapError further).records = work.records ++ (further e).records := by
  rw [mapError, h]

theorem result_tokenize (source : String) (tracing : Tracing) :
    (tokenize source tracing).result = ScriptFrontend.tokenize source := rfl

theorem result_check (tokens : List Token) (tracing : Tracing) :
    (check tokens tracing).result = Diagnostic.check tokens := rfl

theorem result_lex (source : String) (tracing : Tracing) :
    (lex source tracing).result = ScriptFrontend.lex source := rfl

theorem result_lexWithReports (name source : String) (tracing : Tracing) :
    (lexWithReports name source tracing).result = ScriptFrontend.lexWithReports name source :=
  result_mapError _ _

end Traced

end ScriptFrontend
