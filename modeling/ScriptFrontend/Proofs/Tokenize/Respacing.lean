import ScriptFrontend.Proofs.Diagnostic.FaultList
import ScriptFrontend.Proofs.Tokenize.Spelling
import ScriptFrontend.Proofs.Tokenize.Tiling

/-!
# Space between tokens

Space does not matter as long as there is some where there was some. `respace` puts the tokens of a
source together again with given blanks before, between and after them. The new source has the same
tokens at their new places, and the same faults (`respaced_of_spacing`): a lexeme may always be
followed by a blank, except for an open string, and it has seen no more of what follows than
its first character (`Lexeme.Fits.before_blank`).
-/

namespace ScriptFrontend

open Text Cursor

/-- The texts of the tokens, each with its space in front. The end token has no text, so that the
last space ends the whole. -/
def respace : List String → List Token → String
  | space :: spaces, t :: ts => space ++ t.text ++ respace spaces ts
  | _, _ => ""

/-- The tokens as they stand in what `respace` gives, from a byte offset on. -/
def placed (offset : Nat) : List String → List Token → List Token
  | space :: spaces, t :: ts =>
    let start := offset + space.utf8ByteSize
    let stop := start + t.text.utf8ByteSize
    ⟨t.kind, t.literal, ⟨start, stop⟩⟩ :: placed stop spaces ts
  | _, _ => []

/-- Space that leaves the tokens as they are: the first before all of them, the last at the end. -/
structure Spacing (offset : Nat) (tokens : List Token) (spaces : List String) : Prop where
  length_eq : spaces.length = tokens.length
  blank : ∀ space ∈ spaces, Blank space.toList
  /-- Two tokens that are apart stay apart. -/
  inner : ∀ p ∈ ((gaps offset tokens).zip spaces).tail.dropLast, p.1.isEmpty = false → p.2 ≠ ""
  /-- An open string would take in what comes after it. -/
  closed : ∀ t ∈ tokens.dropLast.getLast?, t.kind = .string false → spaces.getLast? = some ""

/-! ## Outcomes -/

namespace Diagnostic

/-- What is wrong, wherever it is. -/
def unplaced : Diagnostic → Diagnostic
  | illegalCharacter literal _ => illegalCharacter literal ⟨0, 0⟩
  | unterminatedString _ => unterminatedString ⟨0, 0⟩
  | malformedNumber literal _ => malformedNumber literal ⟨0, 0⟩

end Diagnostic

/-- What `lex` says of a source, apart from places. -/
def outcome (source : String) : Except (List Diagnostic) (List Lexeme) :=
  match lex source with
  | .ok tokens => .ok (tokens.map Token.lexeme)
  | .error faults => .error (faults.map Diagnostic.unplaced)

/-- The fault of a token that says this, apart from its place. -/
def Lexeme.fault? (l : Lexeme) : Option Diagnostic :=
  (Diagnostic.ofToken? ⟨l.kind, String.ofList l.literal, .zero⟩).map .unplaced

theorem map_unplaced_ofToken? (t : Token) :
    (Diagnostic.ofToken? t).map .unplaced = t.lexeme.fault? := by
  obtain ⟨kind, literal, span⟩ := t
  rw [Lexeme.fault?, Token.lexeme, String.ofList_toList]
  cases kind with
  | string terminated => cases terminated <;> rfl
  | float =>
    simp only [Diagnostic.ofToken?]
    split <;> rfl
  | _ => rfl

theorem map_unplaced_check (tokens : List Token) :
    (Diagnostic.check tokens).map .unplaced =
      (tokens.map Token.lexeme).filterMap Lexeme.fault? := by
  rw [Diagnostic.check, List.map_filterMap, List.filterMap_map]
  exact List.filterMap_congr fun t _ => map_unplaced_ofToken? t

theorem outcome_eq_of_lexemes {a b : String}
    (h : (tokenize a).map Token.lexeme = (tokenize b).map Token.lexeme) :
    outcome a = outcome b := by
  have hfaults : (Diagnostic.check (tokenize a)).map Diagnostic.unplaced =
      (Diagnostic.check (tokenize b)).map Diagnostic.unplaced := by
    rw [map_unplaced_check, map_unplaced_check, h]
  have hempty : Diagnostic.check (tokenize a) = [] ↔ Diagnostic.check (tokenize b) = [] := by
    rw [← List.map_eq_nil_iff (f := Diagnostic.unplaced), hfaults, List.map_eq_nil_iff]
  rw [outcome, outcome, lex_eq, lex_eq]
  by_cases hb : Diagnostic.check (tokenize b) = []
  · rw [if_pos (hempty.mpr hb), if_pos hb]
    exact congrArg Except.ok h
  · rw [if_neg (mt hempty.mp hb), if_neg hb]
    exact congrArg Except.error hfaults

/-! ## One lexeme -/

theorem MaximalRun.before_blank {p : Char → Bool} {text : List Char} {next next' : Option Char}
    (h : MaximalRun p text next) (hp : ∀ c, p c = true → isBlank c = false)
    (hnext : ∀ c ∈ next', isBlank c = true) : MaximalRun p text next' where
  ne_nil := h.ne_nil
  inside := h.inside
  stops c hc := Bool.eq_false_iff.mpr fun hpc => by
    have := hp c hpc
    rw [hnext c hc] at this
    cases this

theorem Lexeme.Fits.before_blank {l : Lexeme} {rest rest' : List Char} (h : l.Fits rest)
    (hblank : ∀ c ∈ rest'.head?, isBlank c = true)
    (hopen : l.kind = .string false → rest' = []) : l.Fits rest' := by
  obtain ⟨kind, literal⟩ := l
  cases kind with
  | keyword k => exact ⟨h.1.before_blank (fun _ => isBlank_of_isWordChar) hblank, h.2⟩
  | ident => exact ⟨h.1.before_blank (fun _ => isBlank_of_isWordChar) hblank, h.2⟩
  | int => exact ⟨h.1.before_blank (fun _ => isBlank_of_isNumberChar) hblank, h.2⟩
  | float => exact ⟨h.1.before_blank (fun _ => isBlank_of_isNumberChar) hblank, h.2⟩
  | operator o =>
    refine ⟨h.1, fun _ heq => ?_⟩
    exact absurd (hblank _ heq) (by decide)
  | string terminated =>
    cases terminated with
    | true => exact h
    | false =>
      obtain ⟨body, hbody, htext, -⟩ := h
      exact ⟨body, hbody, htext, by rw [hopen rfl]; rfl⟩
  | _ => exact h

/-- Only the first character after a lexeme matters to it. -/
theorem Lexeme.Fits.of_head {l : Lexeme} {rest rest' : List Char} (h : l.Fits rest)
    (hhead : rest.head? = rest'.head?) : l.Fits rest' := by
  rwa [Lexeme.Fits, ← hhead]

theorem Lexeme.Fits.eq_nil_of_open {l : Lexeme} {rest : List Char} (h : l.Fits rest)
    (hkind : l.kind = .string false) : rest = [] := by
  rw [Lexeme.Fits, hkind] at h
  obtain ⟨_, -, -, hnone⟩ := h
  exact List.head?_eq_none_iff.mp hnone

/-! ## Putting tokens together -/

theorem respace_eof (last : String) (n : Nat) : respace [last] [.eof n] = last := by
  simp [respace, Token.text, Token.eof, TokenKind.enclose]

theorem placed_eof (offset n : Nat) (last : String) :
    placed offset [last] [.eof n] = [.eof (offset + last.utf8ByteSize)] := by
  simp [placed, Token.text, Token.eof, TokenKind.enclose]

section

variable (n offset : Nat) (l : Lexeme) (ts : List Token) (space : String) (spaces : List String)

theorem toList_respace_tokenAt :
    (respace (space :: spaces) (tokenAt n l :: ts)).toList =
      space.toList ++ l.text ++ (respace spaces ts).toList := by
  rw [respace, String.toList_append, String.toList_append, text_tokenAt, String.toList_ofList]

theorem placed_tokenAt :
    placed offset (space :: spaces) (tokenAt n l :: ts) =
      tokenAt (offset + space.utf8ByteSize) l ::
        placed (offset + space.utf8ByteSize + byteLength l.text) spaces ts := by
  rw [placed, text_tokenAt, utf8ByteSize_ofList]
  rfl

end

/-! ## The run -/

namespace Spacing

variable {offset : Nat} {t u : Token} {ts : List Token} {space between : String}
variable {spaces : List String}

theorem tail (h : Spacing offset (t :: ts) (space :: spaces)) :
    Spacing t.span.stop ts spaces where
  length_eq := Nat.succ.inj h.length_eq
  blank s hs := h.blank s (List.mem_cons_of_mem _ hs)
  inner p hp := by
    refine h.inner p ?_
    rw [gaps, List.zip_cons_cons, List.tail_cons]
    rw [← List.tail_dropLast] at hp
    exact List.mem_of_mem_tail hp
  closed u hu hkind := by
    have hts : ts ≠ [] := by
      rintro rfl
      cases hu
    have hlast : (t :: ts).dropLast.getLast? = some u := by
      rw [List.dropLast_cons_of_ne_nil hts, List.getLast?_cons, hu, Option.getD_some]
    have hspace := h.closed u hlast hkind
    cases spaces with
    | nil => exact absurd (Nat.succ.inj h.length_eq).symm (mt List.eq_nil_of_length_eq_zero hts)
    | cons between spaces => rwa [List.getLast?_cons_cons] at hspace

/-- There may be no space between two tokens only if there was none. -/
theorem isEmpty_gap (h : Spacing offset (t :: u :: ts) (space :: "" :: spaces)) (hts : ts ≠ []) :
    Span.isEmpty ⟨t.span.stop, u.span.start⟩ = true := by
  obtain ⟨v, ts, rfl⟩ := List.exists_cons_of_ne_nil hts
  cases spaces with
  | nil => cases h.length_eq
  | cons last spaces =>
    refine Bool.not_eq_false _ |>.mp fun hgap => h.inner (_, "") ?_ hgap rfl
    simp [gaps]

end Spacing

namespace Reading

variable {before rest : List Char} {ts : List Token} {spaces : List String}

/-- The lexeme of a token fits before what comes after it in the new source. -/
theorem fits_respace {l : Lexeme} {offset : Nat} {t : Token} {space : String}
    (h : Reading before rest ts) (hfits : l.Fits rest)
    (hspacing : Spacing offset (t :: ts) (space :: spaces)) (hkind : t.kind = l.kind)
    (hstop : t.span.stop = byteLength before) :
    l.Fits (respace spaces ts).toList := by
  cases h with
  | done hgap =>
    obtain ⟨last, rfl⟩ := List.length_eq_one_iff.mp (Nat.succ.inj hspacing.length_eq)
    rw [respace_eof]
    refine hfits.before_blank (fun c hc => ?_) fun hopen => ?_
    · exact hspacing.blank last (by simp) c (List.mem_of_mem_head? hc)
    · have hlast := hspacing.closed t rfl (hkind.trans hopen)
      obtain rfl : last = "" := by simpa using hlast
      rfl
  | @token _ gap rest l' ts hgap hfits' h =>
    cases spaces with
    | nil => cases hspacing.length_eq
    | cons between spaces =>
      rw [toList_respace_tokenAt, List.append_assoc]
      by_cases hbetween : between = ""
      · -- there was no space either, so that the same character comes next
        subst hbetween
        obtain ⟨body, rfl, -⟩ := h.exists_body
        have hempty := hspacing.isEmpty_gap (by simp)
        have hgap : gap = [] := by
          rw [hstop] at hempty
          simpa [Span.isEmpty, Span.length, tokenAt, byteLength_eq_zero_iff] using hempty
        subst hgap
        refine hfits.of_head ?_
        rw [List.nil_append, String.toList_empty, List.nil_append,
          List.head?_append_of_ne_nil _ hfits'.text_ne_nil,
          List.head?_append_of_ne_nil _ hfits'.text_ne_nil]
      · -- a blank comes next, which only an open string could take in
        have hne : between.toList ≠ [] := by simpa using hbetween
        refine hfits.before_blank (fun c hc => ?_) fun hopen => ?_
        · rw [List.head?_append_of_ne_nil _ hne] at hc
          exact hspacing.blank between (by simp) c (List.mem_of_mem_head? hc)
        · have hnil := hfits.eq_nil_of_open hopen
          simp [hfits'.text_ne_nil] at hnil

/-- The tokens can be derived for the new text, wherever it stands. -/
theorem respaced (h : Reading before rest ts) (hspacing : Spacing (byteLength before) ts spaces)
    (target : List Char) :
    Reading target (respace spaces ts).toList (placed (byteLength target) spaces ts) := by
  induction h generalizing spaces target with
  | @done before gap hgap =>
    obtain ⟨last, rfl⟩ := List.length_eq_one_iff.mp hspacing.length_eq
    rw [respace_eof, placed_eof, ← byteLength_toList, ← byteLength_append]
    exact .done (hspacing.blank last List.mem_cons_self)
  | @token before gap rest l ts hgap hfits h ih =>
    cases spaces with
    | nil => cases hspacing.length_eq
    | cons space spaces =>
      have hstop : (tokenAt (byteLength (before ++ gap)) l).span.stop =
          byteLength (before ++ gap ++ l.text) := (byteLength_append _ _).symm
      have hrest := h.fits_respace hfits hspacing rfl hstop
      have hread := ih (hstop ▸ hspacing.tail) (target ++ space.toList ++ l.text)
      rw [toList_respace_tokenAt, placed_tokenAt, ← byteLength_toList, ← byteLength_append,
        ← byteLength_append]
      exact .token (hspacing.blank space List.mem_cons_self) hrest hread

end Reading

theorem textIn?_tokenize {source : String} {t : Token} (ht : t ∈ tokenize source) :
    t.span.textIn? source = some t.text := by
  rcases mem_tokenize_cases ht with rfl | ⟨-, before, l, after, hstands⟩
  · have hend : Span.textIn? ⟨byteLength source.toList, _⟩ source = some _ :=
      Span.textIn?_append source.toList [] [] (by simp)
    rwa [List.append_nil, byteLength_toList] at hend
  · exact hstands.textIn?

theorem map_textIn?_tokenize (source : String) :
    (tokenize source).map (·.span.textIn? source) =
      ((tokenize source).map Token.lexeme).map fun l => some (String.ofList l.text) := by
  rw [List.map_map]
  exact List.map_congr_left fun t ht => textIn?_tokenize ht

theorem map_lexeme_placed {tokens : List Token} {spaces : List String}
    (hlength : spaces.length = tokens.length) (offset : Nat) :
    (placed offset spaces tokens).map Token.lexeme = tokens.map Token.lexeme := by
  induction tokens generalizing offset spaces with
  | nil =>
    obtain rfl := List.eq_nil_of_length_eq_zero hlength
    rfl
  | cons t ts ih =>
    cases spaces with
    | nil => cases hlength
    | cons space spaces =>
      rw [placed, List.map_cons, List.map_cons, ih (Nat.succ.inj hlength)]
      rfl

/-- The sources `source` and `target` differ in their space only. -/
structure Respaced (source target : String) (spaces : List String) : Prop where
  tokens_eq : tokenize target = placed 0 spaces (tokenize source)
  lexemes_eq : (tokenize target).map Token.lexeme = (tokenize source).map Token.lexeme
  /-- Each token covers the text at its new place that it covered before. -/
  texts_eq : (tokenize target).map (·.span.textIn? target) =
    (tokenize source).map (·.span.textIn? source)
  text_eq : ∀ t ∈ tokenize source, t.span.textIn? source = some t.text
  outcome_eq : outcome target = outcome source

theorem respaced_of_spacing {source : String} {spaces : List String}
    (h : Spacing 0 (tokenize source) spaces) :
    Respaced source (respace spaces (tokenize source)) spaces := by
  have htokens : tokenize (respace spaces (tokenize source)) = placed 0 spaces (tokenize source) :=
    ((reading_tokenize source).respaced h []).tokens_eq
  have hlexemes : (tokenize (respace spaces (tokenize source))).map Token.lexeme =
      (tokenize source).map Token.lexeme := by
    rw [htokens, map_lexeme_placed h.length_eq]
  exact {
    tokens_eq := htokens
    lexemes_eq := hlexemes
    texts_eq := by rw [map_textIn?_tokenize, map_textIn?_tokenize, hlexemes]
    text_eq := fun t => textIn?_tokenize
    outcome_eq := outcome_eq_of_lexemes hlexemes }

/-- A malformed number and an open string, with more, less and other space around them. -/
theorem respaced_open_string :
    ∃ spaces, Spacing 0 (tokenize "x= \t1.5. \"a b") spaces ∧
      respace spaces (tokenize "x= \t1.5. \"a b") = "\nx = 1.5.\r\n\"a b" ∧
      Respaced "x= \t1.5. \"a b" "\nx = 1.5.\r\n\"a b" spaces := by
  have htokens : tokenize "x= \t1.5. \"a b" = [⟨.ident, "x", ⟨0, 1⟩⟩,
      ⟨.operator .assign, "=", ⟨1, 2⟩⟩, ⟨.float, "1.5.", ⟨4, 8⟩⟩, ⟨.string false, "a b", ⟨9, 13⟩⟩,
      .eof 13] := by decide +kernel
  have hspacing : Spacing 0 (tokenize "x= \t1.5. \"a b") ["\n", " ", " ", "\r\n", ""] := by
    rw [htokens]
    exact {
      length_eq := rfl
      blank := by simp [Blank, isBlank]
      inner := by decide +kernel
      closed := fun _ _ _ => rfl }
  have htarget : respace ["\n", " ", " ", "\r\n", ""] (tokenize "x= \t1.5. \"a b") =
      "\nx = 1.5.\r\n\"a b" := by
    rw [htokens]
    decide +kernel
  exact ⟨_, hspacing, htarget, htarget ▸ respaced_of_spacing hspacing⟩

end ScriptFrontend
