import Mathlib.Data.List.TakeWhile
import ScriptFrontend.Proofs.Lexeme.Shape

/-!
# The scanner takes the lexemes of the grammar

`fits_scan`: what the scanner takes fits before what it leaves. `scanned_of_fits`: where a lexeme
fits before a text, the scanner takes that lexeme and leaves that text, since the first character
decides the kind and the next one the extent. So at most one lexeme fits at a place
(`fits_unique`), and a text before a next character has at most one kind (`admits_unique`).
-/

namespace ScriptFrontend

/-! ## Runs -/

section

variable {p : Char → Bool} {text rest : List Char}

theorem takeWhile_append_of_stops (h : ∀ c ∈ text, p c = true)
    (hstop : ∀ c ∈ rest.head?, p c = false) : (text ++ rest).takeWhile p = text := by
  have hrest : rest.takeWhile p = [] := by
    cases rest with
    | nil => rfl
    | cons c cs => simp [hstop c rfl]
  rw [List.takeWhile_append_of_pos h, hrest, List.append_nil]

theorem dropWhile_append_of_stops (h : ∀ c ∈ text, p c = true)
    (hstop : ∀ c ∈ rest.head?, p c = false) : (text ++ rest).dropWhile p = rest := by
  have hrest : rest.dropWhile p = rest := by
    cases rest with
    | nil => rfl
    | cons c cs => simp [hstop c rfl]
  rw [List.dropWhile_append_of_pos h, hrest]

theorem stops_dropWhile (p : Char → Bool) (cs : List Char) :
    ∀ c ∈ (cs.dropWhile p).head?, p c = false := by
  intro c hc
  have := List.head?_dropWhile_not p cs
  rwa [Option.mem_def.mp hc] at this

namespace MaximalRun

theorem takeWhile_append (h : MaximalRun p text rest.head?) : (text ++ rest).takeWhile p = text :=
  takeWhile_append_of_stops h.inside h.stops

theorem dropWhile_append (h : MaximalRun p text rest.head?) : (text ++ rest).dropWhile p = rest :=
  dropWhile_append_of_stops h.inside h.stops

theorem of_takeWhile {c : Char} (cs : List Char) (h : p c = true) :
    MaximalRun p ((c :: cs).takeWhile p) ((c :: cs).dropWhile p).head? where
  ne_nil := by simp [h]
  inside d hd := List.all_eq_true.mp List.all_takeWhile d hd
  stops := stops_dropWhile p (c :: cs)

theorem exists_cons (h : MaximalRun p text rest.head?) : ∃ c cs, text = c :: cs ∧ p c = true := by
  obtain ⟨c, cs, rfl⟩ := List.exists_cons_of_ne_nil h.ne_nil
  exact ⟨c, cs, rfl, h.inside c List.mem_cons_self⟩

end MaximalRun

end

namespace Lexeme

variable {c : Char} {cs rest : List Char}

/-! ## What the scanner takes fits -/

theorem scan_quote : scan '\"' cs = scanString cs := rfl

/-- A character of a class that quotes are not of opens no string. -/
theorem beq_quote_of_class {p : Char → Bool} (hquote : p '\"' = false) (h : p c = true) :
    (c == '\"') = false := by
  rw [beq_eq_false_iff_ne]
  rintro rfl
  rw [hquote] at h
  cases h

theorem scan_of_ofSymbol? {kind : TokenKind} (h : TokenKind.ofSymbol? c = some kind) :
    scan c cs = scanSymbol kind c cs := by
  have hc : (c == '\"') = false :=
    beq_quote_of_class (p := fun d => (TokenKind.ofSymbol? d).isSome) rfl (by rw [h]; rfl)
  simp [scan, hc, h]

theorem scan_of_isNumberChar (h : isNumberChar c = true) : scan c cs = scanNumber (c :: cs) := by
  have hc : (c == '\"') = false := beq_quote_of_class (by decide) h
  simp [scan, hc, TokenKind.ofSymbol?_of_isNumberChar h, h]

theorem scan_of_isWordChar (h : isWordChar c = true) : scan c cs = scanWord (c :: cs) := by
  have hc : (c == '\"') = false := beq_quote_of_class (by decide) h
  simp [scan, hc, TokenKind.ofSymbol?_of_isWordChar h, isNumberChar_of_isWordChar h, h]

theorem fits_scanString : (scanString cs).1.Fits (scanString cs).2 := by
  have hbody : '\"' ∉ cs.takeWhile (· != '\"') := fun h => by
    simpa using List.all_eq_true.mp List.all_takeWhile _ h
  unfold scanString
  split
  · exact ⟨_, hbody, rfl, rfl⟩
  · exact ⟨_, hbody, rfl⟩

theorem scanSymbol_of_stops {kind : TokenKind}
    (h : (Operator.beforeEquals? c).isSome → cs.head? ≠ some '=') :
    scanSymbol kind c cs = (⟨kind, [c]⟩, cs) := by
  unfold scanSymbol
  split
  next o rest ho =>
    simp [ho] at h
  next => rfl

theorem fits_scanSymbol {kind : TokenKind} (h : TokenKind.ofSymbol? c = some kind) :
    (scanSymbol kind c cs).1.Fits (scanSymbol kind c cs).2 := by
  by_cases hc : (Operator.beforeEquals? c).isSome ∧ cs.head? = some '='
  · obtain ⟨ho, hcs⟩ := hc
    obtain ⟨o, ho⟩ := Option.isSome_iff_exists.mp ho
    obtain ⟨rest, rfl⟩ := List.head?_eq_some_iff.mp hcs
    have hspell := Operator.beforeEquals?_eq_some_iff.mp ho
    have htwo : scanSymbol kind c ('=' :: rest) = (⟨.operator o, [c, '=']⟩, rest) := by
      simp [scanSymbol, ho]
    rw [htwo]
    refine ⟨hspell.symm, ?_⟩
    rintro (rfl | rfl) <;> simp [Operator.spelling] at hspell
  · rw [scanSymbol_of_stops (by simpa using hc)]
    rcases TokenKind.ofSymbol?_eq_some_iff.mp h with ⟨o, rfl, ho⟩ | ⟨p, rfl, hp⟩
    · refine ⟨ho.symm, fun hmerge => ?_⟩
      exact fun hcs => hc ⟨(Operator.isSome_beforeEquals?_iff ho).mpr hmerge, hcs⟩
    · exact hp.symm

theorem fits_scanNumber (h : isNumberChar c = true) :
    (scanNumber (c :: cs)).1.Fits (scanNumber (c :: cs)).2 := by
  have hrun := MaximalRun.of_takeWhile cs h
  unfold scanNumber Fits text
  rw [TokenKind.enclose_of_not_string (TokenKind.ofNumber_ne_string _)]
  dsimp only
  unfold TokenKind.ofNumber
  split
  next hdot => exact ⟨hrun, List.contains_iff_mem.mp hdot⟩
  next hdot => exact ⟨hrun, fun hmem => hdot (List.contains_iff_mem.mpr hmem)⟩

theorem fits_scanWord (h : isWordChar c = true) :
    (scanWord (c :: cs)).1.Fits (scanWord (c :: cs)).2 := by
  have hrun := MaximalRun.of_takeWhile cs h
  unfold scanWord Fits text
  rw [TokenKind.enclose_of_not_string (TokenKind.ofWord_ne_string _)]
  dsimp only
  cases hw : TokenKind.ofWord (String.ofList ((c :: cs).takeWhile isWordChar)) with
  | keyword k => exact ⟨hrun, TokenKind.ofWord_eq_keyword_iff.mp hw⟩
  | ident => exact ⟨hrun, TokenKind.ofWord_eq_ident_iff.mp hw⟩
  | _ => unfold TokenKind.ofWord at hw; split at hw <;> cases hw

theorem fits_scan (cs : List Char) (h : isBlank c = false) : (scan c cs).1.Fits (scan c cs).2 := by
  by_cases hq : c = '\"'
  · subst hq
    exact fits_scanString
  by_cases hn : isNumberChar c = true
  · rw [scan_of_isNumberChar hn]
    exact fits_scanNumber hn
  by_cases hw : isWordChar c = true
  · rw [scan_of_isWordChar hw]
    exact fits_scanWord hw
  cases hs : TokenKind.ofSymbol? c with
  | some kind =>
    rw [scan_of_ofSymbol? hs]
    exact fits_scanSymbol hs
  | none =>
    have hill : scan c cs = (⟨.illegal, [c]⟩, cs) := by simp [scan, hq, hs, hn, hw]
    rw [hill]
    refine ⟨c, rfl, h, by simpa using hw, by simpa using hn, hq, fun o ho => ?_, fun p hp => ?_⟩
    · rw [TokenKind.ofSymbol?_eq_some_iff.mpr (.inl ⟨o, rfl, ho⟩)] at hs
      cases hs
    · rw [TokenKind.ofSymbol?_eq_some_iff.mpr (.inr ⟨p, rfl, hp⟩)] at hs
      cases hs

/-! ## The scanner takes what fits -/

/-- The first character of the text opens a lexeme, and the scanner takes the given one. -/
def Scanned (l : Lexeme) (rest : List Char) : Prop :=
  ∃ c cs, l.text ++ rest = c :: cs ∧ isBlank c = false ∧ scan c cs = (l, rest)

variable {literal : List Char}

theorem scanned_of_word (h : MaximalRun isWordChar literal rest.head?) :
    Scanned ⟨.ofWord (String.ofList literal), literal⟩ rest := by
  obtain ⟨c, cs, rfl, hc⟩ := h.exists_cons
  refine ⟨c, cs ++ rest, ?_, isBlank_of_isWordChar hc, ?_⟩
  · rw [text_ofWord, List.cons_append]
  · rw [scan_of_isWordChar hc, ← List.cons_append, scanWord, h.takeWhile_append,
      h.dropWhile_append]

theorem scanned_of_number (h : MaximalRun isNumberChar literal rest.head?) :
    Scanned ⟨.ofNumber literal, literal⟩ rest := by
  obtain ⟨c, cs, rfl, hc⟩ := h.exists_cons
  refine ⟨c, cs ++ rest, ?_, isBlank_of_isNumberChar hc, ?_⟩
  · rw [text_ofNumber, List.cons_append]
  · rw [scan_of_isNumberChar hc, ← List.cons_append, scanNumber, h.takeWhile_append,
      h.dropWhile_append]

theorem scanned_of_symbol {kind : TokenKind} (h : TokenKind.ofSymbol? c = some kind)
    (hkind : ∀ b, kind ≠ .string b)
    (hstop : (Operator.beforeEquals? c).isSome → rest.head? ≠ some '=') :
    Scanned ⟨kind, [c]⟩ rest := by
  refine ⟨c, rest, ?_, ?_, ?_⟩
  · rw [text_of_not_string hkind, List.singleton_append]
  · exact TokenKind.isBlank_of_ofSymbol? h
  · rw [scan_of_ofSymbol? h, scanSymbol_of_stops hstop]

theorem scanned_of_operator {o : Operator}
    (hstop : o = .assign ∨ o = .bang → rest.head? ≠ some '=') :
    Scanned ⟨.operator o, o.spelling.toList⟩ rest := by
  rcases o.spelling_cases with ⟨c, hc⟩ | ⟨c, hc⟩
  · have hsymbol := TokenKind.ofSymbol?_eq_some_iff.mpr (.inl ⟨o, rfl, hc⟩)
    rw [hc]
    exact scanned_of_symbol hsymbol (by simp) fun h =>
      hstop ((Operator.isSome_beforeEquals?_iff hc).mp h)
  · have hbefore := Operator.beforeEquals?_eq_some_iff.mpr hc
    obtain ⟨kind, hkind⟩ : ∃ kind, TokenKind.ofSymbol? c = some kind := by
      unfold Operator.beforeEquals? at hbefore
      split at hbefore <;> cases hbefore <;> exact ⟨_, rfl⟩
    refine ⟨c, '=' :: rest, ?_, ?_, ?_⟩
    · rw [hc, text_of_not_string (by simp)]
      rfl
    · exact TokenKind.isBlank_of_ofSymbol? hkind
    · rw [scan_of_ofSymbol? hkind, hc]
      simp [scanSymbol, hbefore]

theorem scanned_of_mark (p : Punctuation) :
    Scanned ⟨.punctuation p, p.spelling.toList⟩ rest := by
  obtain ⟨c, hc⟩ := p.exists_spelling
  have hsymbol := TokenKind.ofSymbol?_eq_some_iff.mpr (.inr ⟨p, rfl, hc⟩)
  rw [hc]
  refine scanned_of_symbol hsymbol (by simp) fun hbefore => ?_
  obtain ⟨o, ho⟩ := Option.isSome_iff_exists.mp hbefore
  unfold Operator.beforeEquals? at ho
  split at ho <;> cases ho <;> cases p <;> simp [Punctuation.spelling] at hc

theorem ne_quote_of_not_mem (h : '\"' ∉ literal) : ∀ c ∈ literal, (c != '\"') = true := by
  intro c hc
  rw [bne_iff_ne]
  rintro rfl
  exact h hc

theorem scanString_of_closed (h : '\"' ∉ literal) :
    scanString (literal ++ '\"' :: rest) = (⟨.string true, literal⟩, rest) := by
  have hstop : ∀ c ∈ ('\"' :: rest).head?, (c != '\"') = false := by simp
  unfold scanString
  rw [takeWhile_append_of_stops (ne_quote_of_not_mem h) hstop,
    dropWhile_append_of_stops (ne_quote_of_not_mem h) hstop]

theorem scanString_of_open (h : '\"' ∉ literal) :
    scanString literal = (⟨.string false, literal⟩, []) := by
  unfold scanString
  rw [List.takeWhile_eq_self_iff.mpr (ne_quote_of_not_mem h),
    List.dropWhile_eq_nil_iff.mpr (ne_quote_of_not_mem h)]

theorem scanned_of_string {terminated : Bool} (h : '\"' ∉ literal)
    (hend : terminated = false → rest = []) : Scanned ⟨.string terminated, literal⟩ rest := by
  cases terminated with
  | true =>
    refine ⟨'\"', literal ++ '\"' :: rest, ?_, by decide, ?_⟩
    · simp [text, TokenKind.enclose]
    · rw [scan_quote, scanString_of_closed h]
  | false =>
    obtain rfl := hend rfl
    refine ⟨'\"', literal, ?_, by decide, ?_⟩
    · simp [text, TokenKind.enclose]
    · rw [scan_quote, scanString_of_open h]

theorem scanned_of_alien (h : Alien c) : Scanned ⟨.illegal, [c]⟩ rest := by
  have hsymbol := h.ofSymbol?_eq_none
  refine ⟨c, rest, rfl, h.not_blank, ?_⟩
  simp [scan, h.not_quote, hsymbol, h.not_number, h.not_word]

theorem scanned_of_fits {l : Lexeme} (h : l.Fits rest) : l.Scanned rest := by
  cases h.shape with
  | string hbody hend => exact scanned_of_string hbody hend
  | number hrun => exact scanned_of_number hrun
  | word hrun => exact scanned_of_word hrun
  | operator hstop => exact scanned_of_operator hstop
  | mark => exact scanned_of_mark _
  | illegal hc => exact scanned_of_alien hc

/-- At most one lexeme fits at the head of a text. -/
theorem fits_unique {l l' : Lexeme} {rest' : List Char} (h : l.Fits rest) (h' : l'.Fits rest')
    (heq : l.text ++ rest = l'.text ++ rest') : l = l' ∧ rest = rest' := by
  obtain ⟨c, cs, htext, -, hscan⟩ := scanned_of_fits h
  obtain ⟨c', cs', htext', -, hscan'⟩ := scanned_of_fits h'
  rw [htext, htext'] at heq
  obtain ⟨rfl, rfl⟩ := List.cons.inj heq
  rw [hscan] at hscan'
  exact Prod.mk.inj hscan'

end Lexeme

namespace TokenKind

variable {text : List Char} {next : Option Char}

/-- What the grammar admits is the text of a lexeme of that kind. -/
theorem exists_lexeme_of_admits {kind : TokenKind} (h : kind.Admits text next) :
    ∃ l : Lexeme, l.kind = kind ∧ l.text = text := by
  cases kind with
  | string terminated =>
    cases terminated with
    | true =>
      obtain ⟨body, -, rfl⟩ := h
      exact ⟨⟨.string true, body⟩, rfl, rfl⟩
    | false =>
      obtain ⟨body, -, rfl, -⟩ := h
      exact ⟨⟨.string false, body⟩, rfl, rfl⟩
  | _ => exact ⟨⟨_, text⟩, rfl, rfl⟩

/-- A text before a next character has at most one kind. -/
theorem admits_unique {kind kind' : TokenKind} (h : kind.Admits text next)
    (h' : kind'.Admits text next) : kind = kind' := by
  obtain ⟨l, rfl, hl⟩ := exists_lexeme_of_admits h
  obtain ⟨l', rfl, hl'⟩ := exists_lexeme_of_admits h'
  have hfits : l.Fits next.toList := by
    rw [Lexeme.Fits, hl]
    simpa using h
  have hfits' : l'.Fits next.toList := by
    rw [Lexeme.Fits, hl']
    simpa using h'
  rw [(Lexeme.fits_unique hfits hfits' (by rw [hl, hl'])).1]

end TokenKind

end ScriptFrontend
