import ScriptFrontend.Diagnostic
import ScriptFrontend.Proofs.Tokenize.Concatenation

/-!
# Text that is still being written

A lexeme is settled once a character after it is known. So text at the end of a source can change
its last token only, and that one only if it goes to the end of the source: it may grow, and change
its kind as it does. The tokens before it, and what they report, stay (`tokenize_append_stable`).
-/

namespace ScriptFrontend

open Text Cursor

/-! ## One lexeme -/

namespace Lexeme.Fits

variable {l l' : Lexeme} {rest rest' : List Char}

/-- More text after a lexeme leaves one that is no shorter at its place. -/
theorem isPrefix (h : l.Fits rest) (h' : l'.Fits rest') {bs : List Char}
    (heq : l.text ++ (rest ++ bs) = l'.text ++ rest') : l.text <+: l'.text := by
  rcases List.append_eq_append_iff.mp heq with ⟨ws, htext, -⟩ | ⟨ws, htext, rfl⟩
  · exact ⟨ws, htext.symm⟩
  cases ws with
  | nil =>
    have hsame : l.text = l'.text := by rw [htext, List.append_nil]
    exact hsame ▸ List.prefix_rfl
  | cons w ws =>
    -- the shorter one sees `w` next, with or without the new text
    have hshort : l'.Fits (w :: ws ++ rest) := h'
    have heq' : l.text ++ rest = l'.text ++ (w :: ws ++ rest) := by
      rw [htext, List.append_assoc]
    obtain ⟨rfl, -⟩ := fits_unique h hshort heq'
    exact List.prefix_rfl

theorem exists_grown (h : l.Fits rest) (bs : List Char) :
    ∃ l' rest', l'.Fits rest' ∧ l.text ++ (rest ++ bs) = l'.text ++ rest' ∧
      l.text <+: l'.text ∧ (rest ≠ [] → l' = l) := by
  obtain ⟨c, cs, htext, hc, -⟩ := scanned_of_fits h
  have hnew : l.text ++ (rest ++ bs) = (scan c (cs ++ bs)).1.text ++ (scan c (cs ++ bs)).2 := by
    rw [text_scan, ← List.append_assoc, htext, List.cons_append]
  have hfits := fits_scan (cs ++ bs) hc
  refine ⟨_, _, hfits, hnew, h.isPrefix hfits hnew, fun hrest => ?_⟩
  exact (fits_unique (h.append hrest bs) hfits hnew).1.symm

end Lexeme.Fits

/-! ## The last token -/

theorem filter_not_isEof_tokenize (source : String) :
    (tokenize source).filter (fun t => !t.isEof) ++ [.eof source.utf8ByteSize] =
      tokenize source := by
  obtain ⟨body, hts, hbody⟩ := (reading_tokenize source).exists_body
  have hkept : body.filter (fun t => !t.isEof) = body :=
    List.filter_eq_self.mpr fun t ht => by rw [hbody t ht, Bool.not_false]
  rw [List.nil_append, byteLength_toList] at hts
  rw [hts, List.filter_append, hkept]
  simp [Token.eof, Token.isEof, TokenKind.isEof]

/-- The last token of `a` becomes `next` before more text. -/
structure Grows (a : String) (last next : Token) : Prop where
  isEof_next : next.isEof = false
  start_eq : next.span.start = last.span.start
  stop_le : last.span.stop ≤ next.span.stop
  /-- A token with something after it is settled. -/
  eq_of_lt : last.span.stop < a.utf8ByteSize → next = last

theorem Stands.grows {a : String} {t : Token} {before after rest : List Char} {l l' : Lexeme}
    (h : Stands a.toList t before l after) (hfits : l'.Fits rest) (hlonger : l.text <+: l'.text)
    (hsame : after ≠ [] → l' = l) : Grows a t (tokenAt (byteLength before) l') := by
  have hspan := h.span_eq
  exact {
    isEof_next := isEof_tokenAt hfits.kind_ne_eof
    start_eq := by rw [hspan]; rfl
    stop_le := by
      obtain ⟨ws, hws⟩ := hlonger
      rw [hspan]
      show byteLength (before ++ l.text) ≤ byteLength before + byteLength l'.text
      rw [← hws, byteLength_append, byteLength_append]
      omega
    eq_of_lt := fun hlt => by
      have hafter : after ≠ [] := fun hnil => Nat.ne_of_lt hlt (h.stop_eq_iff.mpr hnil)
      rw [hsame hafter, h.token_eq] }

theorem exists_grows_append (a b : String) {init : List Token} {last : Token}
    (h : tokenize a = init ++ [last, .eof a.utf8ByteSize]) (heof : last.isEof = false) :
    ∃ next rest, tokenize (a ++ b) = init ++ next :: rest ∧ Grows a last next := by
  have hread := reading_tokenize a
  rw [h] at hread
  obtain ⟨before, l, after, hstands, hend⟩ := hread.exists_stands_between .start heof
  have hne : l.text ++ after ≠ [] :=
    List.append_ne_nil_of_left_ne_nil hstands.fits.text_ne_nil after
  obtain ⟨ts, hts⟩ := hstands.reaches.exists_tokens_append hne
  obtain rfl : ts = init := by
    have ha : tokenize a = ts ++ [last, .eof a.utf8ByteSize] := by
      have hnil := hts []
      rw [List.append_nil, List.append_nil, tokens_of_lexeme before hstands.fits,
        hend.tokens_eq, ← hstands.token_eq] at hnil
      exact hnil
    exact List.append_cancel_right (ha.symm.trans h)
  obtain ⟨l', rest, hfits, htext, hlonger, hsame⟩ := hstands.fits.exists_grown b.toList
  refine ⟨tokenAt (byteLength before) l', tokens ⟨byteLength (before ++ l'.text), rest⟩, ?_,
    hstands.grows hfits hlonger hsame⟩
  have hb := hts b.toList
  rw [List.append_assoc, htext, tokens_of_lexeme before hfits, ← String.toList_append] at hb
  exact hb

/-- What the tokens before the last one report does not depend on what comes then. -/
theorem Diagnostic.getElem?_check_append {init us : List Token} {last : Token} {offset i : Nat}
    {d : Diagnostic} (hd : (check (init ++ [last, .eof offset]))[i]? = some d)
    (hlast : ofToken? last ≠ some d) : (check (init ++ us))[i]? = some d := by
  rw [check, List.filterMap_append] at hd ⊢
  by_cases hi : i < (init.filterMap ofToken?).length
  · rw [List.getElem?_append_left hi] at hd ⊢
    exact hd
  · rw [List.getElem?_append_right (Nat.le_of_not_lt hi)] at hd
    obtain ⟨t, ht, htd⟩ := List.mem_filterMap.mp (List.mem_of_getElem? hd)
    rcases List.mem_cons.mp ht with rfl | ht
    · exact absurd htd hlast
    · obtain rfl := List.mem_singleton.mp ht
      cases htd

theorem tokenize_append_stable (a b : String) {init : List Token} {last : Token}
    (h : (tokenize a).filter (fun t => !t.isEof) = init ++ [last]) :
    (∃ next rest, tokenize (a ++ b) = init ++ next :: rest ∧ Grows a last next) ∧
      ∀ (i : Nat) (d : Diagnostic), (Diagnostic.check (tokenize a))[i]? = some d →
        Diagnostic.ofToken? last ≠ some d →
        (Diagnostic.check (tokenize (a ++ b)))[i]? = some d := by
  have ha : tokenize a = init ++ [last, .eof a.utf8ByteSize] := by
    rw [← filter_not_isEof_tokenize, h, List.append_assoc, List.singleton_append]
  have heof : last.isEof = false := by
    have hmem : last ∈ (tokenize a).filter (fun t => !t.isEof) := by simp [h]
    simpa using (List.mem_filter.mp hmem).2
  obtain ⟨next, rest, htokens, hgrows⟩ := exists_grows_append a b ha heof
  refine ⟨⟨next, rest, htokens, hgrows⟩, fun i d hd hlast => ?_⟩
  rw [ha] at hd
  rw [htokens]
  exact Diagnostic.getElem?_check_append hd hlast

/-- The last token may change its kind: an integer becomes a malformed float. -/
example : tokenize ("1" ++ ".2.") = [⟨.float, "1.2.", ⟨0, 4⟩⟩, .eof 4] := by decide +kernel

/-- A word before a blank stays, and so does the report of the stray character before it. -/
theorem tokenize_append_stable_word :
    (tokenize "@ x ").filter (fun t => !t.isEof) =
        [⟨.illegal, "@", ⟨0, 1⟩⟩] ++ [⟨.ident, "x", ⟨2, 3⟩⟩] ∧
      (∃ rest, tokenize ("@ x " ++ "y") =
        [⟨.illegal, "@", ⟨0, 1⟩⟩] ++ ⟨.ident, "x", ⟨2, 3⟩⟩ :: rest) ∧
      (Diagnostic.check (tokenize ("@ x " ++ "y")))[0]? =
        some (.illegalCharacter "@" ⟨0, 1⟩) := by
  have hbody : (tokenize "@ x ").filter (fun t => !t.isEof) =
      [⟨.illegal, "@", ⟨0, 1⟩⟩] ++ [⟨.ident, "x", ⟨2, 3⟩⟩] := by decide +kernel
  obtain ⟨⟨next, rest, htokens, hgrows⟩, hreports⟩ := tokenize_append_stable "@ x " "y" hbody
  rw [hgrows.eq_of_lt (by decide)] at htokens
  exact ⟨hbody, ⟨rest, htokens⟩, hreports 0 _ (by decide +kernel) (by decide)⟩

end ScriptFrontend
