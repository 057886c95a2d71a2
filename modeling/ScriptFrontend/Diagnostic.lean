import ScriptFrontend.Text.Quoted
import ScriptFrontend.Number.Binary64
import ScriptFrontend.Token.Cursor

/-!
# Lexical diagnostics

The tokenizer accepts every text; a `Diagnostic` says what is wrong with a token that encodes a
fault. `Diagnostic.check` lists the faults of a token list in its order, and `lex` refuses a
source that has any. A `Report` is a diagnostic together with the source it speaks of and that
source's name, so that the text at fault can be shown. `lexWithReports` is `lex` with its faults
turned into reports.

Reports are those of the library `miette`. What it does with a diagnostic that is given a source is
not defined here but assumed, in `Report` and `Report.excerpts`.
-/

namespace ScriptFrontend

inductive Diagnostic where
  | illegalCharacter (literal : String) (place : Extent)
  | unterminatedString (place : Extent)
  | malformedNumber (literal : String) (place : Extent)
  deriving DecidableEq, Repr

namespace Diagnostic

def place : Diagnostic → Extent
  | illegalCharacter _ place | unterminatedString place | malformedNumber _ place => place

def span (d : Diagnostic) : Span := d.place.span

/-- The text at fault; of a string only the place matters. -/
def literal? : Diagnostic → Option String
  | illegalCharacter literal _ | malformedNumber literal _ => some literal
  | unterminatedString _ => none

def message : Diagnostic → String
  | illegalCharacter literal _ => "illegal character " ++ Text.quote literal
  | unterminatedString _ => "unterminated string literal"
  | malformedNumber literal _ => "malformed number literal " ++ Text.quote literal

/-- The stable name of the rule that is broken. -/
def code : Diagnostic → String
  | illegalCharacter _ _ => "sunjar::lex::illegal_character"
  | unterminatedString _ => "sunjar::lex::unterminated_string"
  | malformedNumber _ _ => "sunjar::lex::malformed_number"

/-- Advice, where the message alone does not tell what to do. -/
def help? : Diagnostic → Option String
  | illegalCharacter _ _ => none
  | unterminatedString _ => some "add a closing `\"` before the end of the input"
  | malformedNumber _ _ => some "a number may contain at most one `.` and at least one digit"

/-- The note that is drawn at the place of the fault. -/
def caption : Diagnostic → String
  | illegalCharacter _ _ => "not valid here"
  | unterminatedString _ => "string starts here"
  | malformedNumber _ _ => "not a valid number"

/-- The notes with their places; a diagnostic has one. -/
def labels (d : Diagnostic) : List (String × Extent) := [(d.caption, d.place)]

/-- The fault that the token encodes, if any. A float is at fault when its literal is no number. -/
def ofToken? (t : Token) : Option Diagnostic :=
  match t.kind with
  | .illegal => some (.illegalCharacter t.literal t.span.extent)
  | .string false => some (.unterminatedString t.span.extent)
  | .float =>
    match Number.readBinary64 t.literal with
    | .ok _ => none
    | .error _ => some (.malformedNumber t.literal t.span.extent)
  | _ => none

/-- The faults of a token list, in its order. -/
def check (tokens : List Token) : List Diagnostic := tokens.filterMap ofToken?

end Diagnostic

/-- Accepts the tokens if nothing is wrong with them. -/
def acceptUnless (tokens : List Token) : List Diagnostic → Except (List Diagnostic) (List Token)
  | [] => .ok tokens
  | faults => .error faults

/-- The tokens of a source without lexical faults, or else all of its faults. -/
def lex (source : String) : Except (List Diagnostic) (List Token) :=
  let tokens := tokenize source
  acceptUnless tokens (Diagnostic.check tokens)

/-! ## Reports -/

/-- A diagnostic with a named source attached. `miette` is assumed to keep all three as they are
given. -/
structure Report where
  diagnostic : Diagnostic
  sourceName : String
  source : String
  deriving DecidableEq, Repr

/-- The source text at each label, which is none where the label does not fit the source. `miette`
is assumed to read it from the attached source, by the bytes of the place. -/
def Report.excerpts (r : Report) : List (Option String) :=
  r.diagnostic.labels.map fun (_, place) =>
    Text.slice? r.source place.span.start place.span.stop

/-- One report for each fault, in the order of the faults. -/
def Report.ofFaults (name source : String) (faults : List Diagnostic) : List Report :=
  faults.map fun d => ⟨d, name, source⟩

def lexWithReports (name source : String) : Except (List Report) (List Token) :=
  (lex source).mapError (Report.ofFaults name source)

end ScriptFrontend
