import ScriptFrontend.Diagnostic
import ScriptFrontend.Proofs.Lexeme.Shape
import ScriptFrontend.Proofs.Number.Run
import ScriptFrontend.Proofs.Tokenize.MaximalMunch

/-!
# Faults of a source

`Fault source d` reads a fault off the characters of a source: quotes pair up from the left, and
what is outside the pairs is faulty where a character is alien, where a run of digits and dots is
malformed, and where the last quote has no partner. `lex` reports these faults and no others, in
their order (`lex_reports_faults`).
-/

namespace ScriptFrontend

open Text Cursor

/-- The quotes so far pair up, so that what follows is outside of strings. -/
def Outside (before : List Char) : Prop := before.count '\"' % 2 = 0

inductive Fault (source : List Char) : Diagnostic → Prop where
  | illegalCharacter {before after : List Char} {c : Char} (hsource : source = before ++ c :: after)
      (hout : Outside before) (hc : Alien c) :
      Fault source (.illegalCharacter (String.singleton c) ⟨byteLength before, byteLength [c]⟩)
  /-- The run goes as far as the digits and dots go, to the left and to the right. -/
  | malformedNumber {before run after : List Char} (hsource : source = before ++ run ++ after)
      (hout : Outside before) (hleft : ∀ c ∈ before.getLast?, isNumberChar c = false)
      (hrun : MaximalRun isNumberChar run after.head?) (hbad : Malformed run) :
      Fault source (.malformedNumber (String.ofList run) ⟨byteLength before, byteLength run⟩)
  /-- The last of an odd number of quotes. -/
  | unterminatedString {before body : List Char} (hsource : source = before ++ '\"' :: body)
      (hodd : source.count '\"' % 2 = 1) (hbody : '\"' ∉ body) :
      Fault source (.unterminatedString ⟨byteLength before, byteLength ('\"' :: body)⟩)

/-! ## What stands before a token -/

/-- Between `before` and more text, strings are closed and no number goes on. -/
structure Clean (before rest : List Char) : Prop where
  outside : Outside before
  stops : ∀ c ∈ before.getLast?, isNumberChar c = true → ∀ d ∈ rest.head?, isNumberChar d = false

theorem Blank.count_quote {gap : List Char} (h : Blank gap) : gap.count '\"' = 0 :=
  List.count_eq_zero.mpr fun hmem => absurd (h _ hmem) (by decide)

namespace Lexeme

variable {l : Lexeme} {rest : List Char}

theorem Fits.outside_text (h : l.Fits rest) (hrest : rest ≠ []) : Outside l.text := by
  by_cases hmem : '\"' ∈ l.text
  · obtain ⟨terminated, body, rfl⟩ := h.exists_string hmem
    have hbody : '\"' ∉ body := h.not_mem_of_string rfl
    cases terminated with
    | true => simp [Outside, text, TokenKind.enclose, List.count_eq_zero.mpr hbody]
    | false =>
      obtain ⟨_, -, -, hend⟩ := h
      exact absurd (List.head?_eq_none_iff.mp hend) hrest
  · exact congrArg (· % 2) (List.count_eq_zero.mpr hmem)

/-- A lexeme that ends in a digit or dot is a number, and takes all of them. -/
theorem Fits.stops_number (h : l.Fits rest) : ∀ c ∈ l.text.getLast?, isNumberChar c = true →
    ∀ d ∈ rest.head?, isNumberChar d = false := by
  intro c hc hnumber
  by_cases hstring : ∃ b, l.kind = .string b
  · obtain ⟨terminated, hkind⟩ := hstring
    obtain ⟨kind, body⟩ := l
    obtain rfl : kind = .string terminated := hkind
    cases terminated with
    | true =>
      rw [show text ⟨.string true, body⟩ = ('\"' :: body) ++ ['\"'] from rfl,
        List.getLast?_concat] at hc
      obtain rfl := Option.some.inj hc
      exact absurd hnumber (by decide)
    | false =>
      obtain ⟨_, -, -, hend⟩ := h
      rw [hend]
      simp
  · have hne : ∀ b, l.kind ≠ .string b := fun b hb => hstring ⟨b, hb⟩
    obtain ⟨run, rfl, hrun⟩ := h.exists_number hne (List.mem_of_getLast? hc) hnumber
    exact hrun.stops

end Lexeme

theorem Outside.append {before text : List Char} (h : Outside before) (htext : Outside text) :
    Outside (before ++ text) := by
  unfold Outside at *
  rw [List.count_append]
  omega

theorem Reaches.clean {source before rest : List Char} (h : Reaches source before rest)
    (hrest : rest ≠ []) : Clean before rest := by
  induction h with
  | start => exact ⟨rfl, by simp⟩
  | @blanks before gap rest h hgap ih =>
    obtain ⟨hout, hstops⟩ := ih (by simp [hrest])
    have hgapout : Outside gap := congrArg (· % 2) hgap.count_quote
    refine ⟨hout.append hgapout, ?_⟩
    rcases List.eq_nil_or_concat gap with rfl | ⟨init, b, rfl⟩
    · simpa using hstops
    · intro c hc hnumber
      obtain rfl : b = c := by simpa [List.getLast?_append] using hc
      have hblank := hgap b (by simp)
      rw [isBlank_of_isNumberChar hnumber] at hblank
      cases hblank
  | @lexeme before rest l h hfits ih =>
    obtain ⟨hout, -⟩ := ih (by simp [hrest])
    refine ⟨hout.append (hfits.outside_text hrest), fun c hc => hfits.stops_number c ?_⟩
    have hlast := List.getLast?_eq_some_getLast hfits.text_ne_nil
    rwa [List.getLast?_append, hlast, Option.some_or, ← hlast] at hc

theorem Stands.clean {source before after : List Char} {t : Token} {l : Lexeme}
    (h : Stands source t before l after) : Clean before (l.text ++ after) :=
  h.reaches.clean (List.append_ne_nil_of_left_ne_nil h.fits.text_ne_nil after)

/-! ## Each report is a fault -/

theorem Diagnostic.ofToken?_eq_some_iff {t : Token} {d : Diagnostic} :
    ofToken? t = some d ↔
      t.kind = .illegal ∧ d = .illegalCharacter t.literal t.span.extent ∨
      t.kind = .string false ∧ d = .unterminatedString t.span.extent ∨
      t.kind = .float ∧ (∃ fault, Number.readBinary64 t.literal = .error fault) ∧
        d = .malformedNumber t.literal t.span.extent := by
  unfold ofToken?
  split
  next h => simp [h, eq_comm]
  next h => simp [h, eq_comm]
  next h =>
    split
    next x hx => simp [h, hx]
    next fault hx => simp [h, hx, eq_comm]
  next hill hopen hfloat =>
    refine iff_of_false (by simp) ?_
    rintro (⟨h, -⟩ | ⟨h, -⟩ | ⟨h, -⟩)
    · exact hill h
    · exact hopen h
    · exact hfloat h

theorem Stands.extent_eq {source before after : List Char} {t : Token} {l : Lexeme}
    (h : Stands source t before l after) :
    t.span.extent = ⟨byteLength before, byteLength l.text⟩ := by
  rw [h.span_eq, byteLength_append, Span.extent, Span.length]
  simp

theorem Stands.literal_eq {source before after : List Char} {t : Token} {l : Lexeme}
    (h : Stands source t before l after) (hkind : ∀ b, t.kind ≠ .string b) :
    t.literal = String.ofList l.text := by
  rw [← h.text_eq, Token.text_of_not_string hkind]

theorem Stands.fault {source before after : List Char} {t : Token} {l : Lexeme}
    (h : Stands source t before l after) {d : Diagnostic} (hd : Diagnostic.ofToken? t = some d) :
    Fault source d := by
  have hsource := h.source_eq
  have hclean := h.clean
  have hadmits := h.fits
  rw [Lexeme.Fits, ← h.kind_eq] at hadmits
  rcases Diagnostic.ofToken?_eq_some_iff.mp hd with
    ⟨hkind, rfl⟩ | ⟨hkind, rfl⟩ | ⟨hkind, hread, rfl⟩
  · rw [hkind] at hadmits
    obtain ⟨c, htext, hc⟩ := TokenKind.admits_illegal_iff.mp hadmits
    rw [h.extent_eq, h.literal_eq (by simp [hkind]), htext]
    exact .illegalCharacter (by simpa [htext] using hsource) hclean.outside hc
  · rw [hkind] at hadmits
    obtain ⟨body, hbody, htext, hend⟩ := hadmits
    obtain rfl : after = [] := List.head?_eq_none_iff.mp hend
    rw [List.append_nil, htext] at hsource
    rw [h.extent_eq, htext]
    refine .unterminatedString hsource ?_ hbody
    have hout : before.count '\"' % 2 = 0 := hclean.outside
    rw [hsource, List.count_append, List.count_cons_self, List.count_eq_zero.mpr hbody]
    omega
  · rw [hkind] at hadmits
    obtain ⟨hrun, -⟩ := hadmits
    rw [h.literal_eq (by simp [hkind])] at hread ⊢
    rw [h.extent_eq]
    refine .malformedNumber hsource hclean.outside (fun c hc => ?_) hrun
      ((readBinary64_eq_error_iff hrun.inside).mp hread)
    -- a digit or dot just before the run would have been followed by no digit or dot
    obtain ⟨d, ds, hd, hdnumber⟩ := hrun.exists_cons
    refine Bool.eq_false_iff.mpr fun hnumber => ?_
    have := hclean.stops c hc hnumber d (by simp [hd])
    rw [hdnumber] at this
    cases this

/-! ## Each fault is reported -/

/-- A character outside of strings stands in a token, which is a string only if it opens one. -/
theorem exists_stands_outside {source : String} {before after : List Char} {c : Char}
    (hsource : source.toList = before ++ c :: after) (hout : Outside before)
    (hc : isBlank c = false) :
    ∃ t ∈ tokenize source, ∃ pre l post as bs, Stands source.toList t pre l post ∧
      l.text = as ++ c :: bs ∧ before = pre ++ as ∧
        ∀ terminated, l.kind = .string terminated → as = [] ∧ c = '\"' := by
  obtain ⟨t, ht, pre, l, post, as, bs, hstands, htext, rfl⟩ :=
    (reading_tokenize source).exists_stands_at .start hc hsource
  refine ⟨t, ht, pre, l, post, as, bs, hstands, htext, rfl, fun terminated hkind => ?_⟩
  have hbody := hstands.fits.not_mem_of_string hkind
  obtain ⟨kind, literal⟩ := l
  obtain rfl : kind = .string terminated := hkind
  rcases Lexeme.count_quote_of_string hbody htext with h | hone
  · exact h
  · have hpre : pre.count '\"' % 2 = 0 := hstands.clean.outside
    rw [Outside, List.count_append] at hout
    omega

namespace Fault

variable {source : String}

theorem illegalCharacter_reported {before after : List Char} {c : Char}
    (hsource : source.toList = before ++ c :: after) (hout : Outside before) (hc : Alien c) :
    .illegalCharacter (String.singleton c) ⟨byteLength before, byteLength [c]⟩ ∈
      Diagnostic.check (tokenize source) := by
  obtain ⟨t, ht, pre, l, post, as, bs, hstands, htext, rfl, hstring⟩ :=
    exists_stands_outside hsource hout hc.not_blank
  have hmem : c ∈ l.text := by simp [htext]
  refine List.mem_filterMap.mpr ⟨t, ht, Diagnostic.ofToken?_eq_some_iff.mpr (.inl ?_)⟩
  obtain rfl := hstands.fits.eq_illegal (fun b hb => hc.not_quote (hstring b hb).2) hmem hc
  obtain rfl : as = [] := by
    cases as with
    | nil => rfl
    | cons a as => simp [Lexeme.text, TokenKind.enclose] at htext
  have hkind := hstands.kind_eq
  refine ⟨hkind, ?_⟩
  rw [hstands.extent_eq, hstands.literal_eq (by simp [hkind]), List.append_nil]
  rfl

theorem malformedNumber_reported {before run after : List Char}
    (hsource : source.toList = before ++ run ++ after) (hout : Outside before)
    (hleft : ∀ c ∈ before.getLast?, isNumberChar c = false)
    (hrun : MaximalRun isNumberChar run after.head?) (hbad : Malformed run) :
    .malformedNumber (String.ofList run) ⟨byteLength before, byteLength run⟩ ∈
      Diagnostic.check (tokenize source) := by
  obtain ⟨c, cs, hcs, hc⟩ := hrun.exists_cons
  rw [hcs, List.append_assoc, List.cons_append] at hsource
  obtain ⟨t, ht, pre, l, post, as, bs, hstands, htext, rfl, hstring⟩ :=
    exists_stands_outside hsource hout (isBlank_of_isNumberChar hc)
  have hmem : c ∈ l.text := by simp [htext]
  refine List.mem_filterMap.mpr ⟨t, ht, Diagnostic.ofToken?_eq_some_iff.mpr (.inr (.inr ?_))⟩
  have hne : ∀ b, l.kind ≠ .string b := fun b hb => by
    obtain ⟨-, rfl⟩ := hstring b hb
    exact absurd hc (by decide)
  obtain ⟨run', rfl, hrun'⟩ := hstands.fits.exists_number hne hmem hc
  rw [Lexeme.text_ofNumber] at htext
  -- the run begins where the token begins, or the token would reach back over `before`
  obtain rfl : as = [] := by
    rcases List.eq_nil_or_concat as with rfl | ⟨init, x, rfl⟩
    · rfl
    · have hx := hrun'.inside x (by simp [htext])
      rw [hleft x (by simp)] at hx
      cases hx
  have hwhole : run' ++ post = run ++ after := by
    have := hstands.source_eq.symm.trans hsource
    rw [Lexeme.text_ofNumber, List.append_nil, List.append_assoc] at this
    rw [List.append_cancel_left this, hcs, List.cons_append]
  obtain rfl : run' = run := by
    rw [← hrun'.takeWhile_append, hwhole, hrun.takeWhile_append]
  have hkind : t.kind = .float := hstands.kind_eq.trans (hbad.ofNumber_eq hrun)
  refine ⟨hkind, ?_, ?_⟩
  · rw [hstands.literal_eq (by simp [hkind]), Lexeme.text_ofNumber]
    exact (readBinary64_eq_error_iff hrun.inside).mpr hbad
  · rw [hstands.extent_eq, hstands.literal_eq (by simp [hkind]), Lexeme.text_ofNumber,
      List.append_nil]

theorem unterminatedString_reported {before body : List Char}
    (hsource : source.toList = before ++ '\"' :: body)
    (hodd : source.toList.count '\"' % 2 = 1) (hbody : '\"' ∉ body) :
    .unterminatedString ⟨byteLength before, byteLength ('\"' :: body)⟩ ∈
      Diagnostic.check (tokenize source) := by
  have hout : Outside before := by
    rw [hsource, List.count_append, List.count_cons_self, List.count_eq_zero.mpr hbody] at hodd
    unfold Outside
    omega
  obtain ⟨t, ht, pre, l, post, as, bs, hstands, htext, rfl, hstring⟩ :=
    exists_stands_outside hsource hout (by decide)
  have hmem : '\"' ∈ l.text := by simp [htext]
  have hbs : body = bs ++ post := by
    have := hstands.source_eq.symm.trans hsource
    rw [htext] at this
    simpa using this.symm
  refine List.mem_filterMap.mpr ⟨t, ht, Diagnostic.ofToken?_eq_some_iff.mpr (.inr (.inl ?_))⟩
  obtain ⟨terminated, literal, rfl⟩ := hstands.fits.exists_string hmem
  obtain ⟨rfl, -⟩ := hstring terminated rfl
  obtain rfl : terminated = false := by
    cases terminated with
    | false => rfl
    | true =>
      -- the closing quote would be one more after the last
      obtain ⟨-, rfl⟩ := List.cons.inj htext
      simp [hbs] at hbody
  obtain ⟨-, rfl⟩ := List.cons.inj htext
  obtain ⟨_, -, -, hend⟩ := hstands.fits
  obtain rfl : post = [] := List.head?_eq_none_iff.mp hend
  obtain rfl : body = literal := by rw [hbs, List.append_nil]
  refine ⟨hstands.kind_eq, ?_⟩
  rw [hstands.extent_eq, List.append_nil]
  rfl

end Fault

end ScriptFrontend
