import Mathlib.Algebra.GroupWithZero.Nat
import ScriptFrontend.Proofs.Tokenize.Concatenation

/-!
# Quotes isolate

The quotes of a source cut it into pieces that are outside and inside of strings in turn. The
tokens of the source are those of the outer pieces, each read on its own, and one string for each
inner piece (`tokenize_quotePieces`). A piece without quotes keeps its tokens before a quote, and a
quote begins a string up to the next one, so the proof goes over the quotes by pairs
(`pairs_of_quotes`).
-/

namespace ScriptFrontend

open Text Cursor

/-- The stretches before, between and after the quotes. -/
def quotePieces (source : String) : List (List Char) := source.toList.splitOn '\"'

/-- Where the `i`-th piece begins: a quote follows each piece before it. -/
def pieceOffset (pieces : List (List Char)) (i : Nat) : Nat :=
  ((pieces.take i).map fun p => byteLength p + 1).sum

/--
The tokens that the `i`-th piece of a source of `size` bytes makes by itself: of an outer piece all
but the end token, moved to its place, and of an inner one a string from the quote before it
through the quote after it, which the last piece lacks.
-/
def pieceTokens (size : Nat) (pieces : List (List Char)) (i : Nat) : List Token :=
  let piece := String.ofList (pieces.getD i [])
  let offset := pieceOffset pieces i
  if i % 2 = 0 then
    (tokenize piece).dropLast.map (Token.shift offset)
  else if i + 1 < pieces.length then
    [⟨.string true, piece, ⟨offset - 1, offset + piece.utf8ByteSize + 1⟩⟩]
  else
    [⟨.string false, piece, ⟨offset - 1, size⟩⟩]

/-- The pieces inside of strings. -/
def innerPieces (pieces : List (List Char)) : List (List Char) :=
  ((List.range pieces.length).filter fun i => i % 2 = 1).map fun i => pieces.getD i []

def Token.isString (t : Token) : Bool :=
  match t.kind with
  | .string _ => true
  | _ => false

/-! ## Texts by pairs of quotes -/

/-- A text has no quote, or one, or a pair of quotes and more text after that. -/
theorem pairs_of_quotes {motive : List Char → Prop}
    (plain : ∀ p, '\"' ∉ p → motive p)
    (opened : ∀ p q, '\"' ∉ p → '\"' ∉ q → motive (p ++ '\"' :: q))
    (closed : ∀ p q rest, '\"' ∉ p → '\"' ∉ q → motive rest →
      motive (p ++ '\"' :: (q ++ '\"' :: rest)))
    (cs : List Char) : motive cs := by
  induction hn : cs.length using Nat.strongRecOn generalizing cs with
  | ind n ih =>
    by_cases hcs : '\"' ∈ cs
    · obtain ⟨p, after, rfl, hp⟩ := List.eq_append_cons_of_mem hcs
      by_cases hafter : '\"' ∈ after
      · obtain ⟨q, rest, rfl, hq⟩ := List.eq_append_cons_of_mem hafter
        simp only [List.length_append, List.length_cons] at hn
        exact closed p q rest hp hq (ih rest.length (by omega) rest rfl)
      · exact opened p after hp hafter
    · exact plain cs hcs

section

variable {p q rest : List Char}

theorem splitOn_of_opened (hp : '\"' ∉ p) (hq : '\"' ∉ q) :
    (p ++ '\"' :: q).splitOn '\"' = [p, q] := by
  rw [List.splitOn_append_cons_self, List.splitOn_eq_singleton hp, List.splitOn_eq_singleton hq]
  rfl

theorem splitOn_of_closed (hp : '\"' ∉ p) (hq : '\"' ∉ q) :
    (p ++ '\"' :: (q ++ '\"' :: rest)).splitOn '\"' = p :: q :: rest.splitOn '\"' := by
  rw [List.splitOn_append_cons_self, List.splitOn_append_cons_self, List.splitOn_eq_singleton hp,
    List.splitOn_eq_singleton hq]
  rfl

/-! ## Texts before and after a quote -/

theorem not_isString_of_not_mem {source : String} (h : '\"' ∉ source.toList) {t : Token}
    (ht : t ∈ tokenize source) : t.isString = false := by
  rcases mem_tokenize_cases ht with rfl | ⟨-, before, l, after, hstands⟩
  · rfl
  unfold Token.isString
  split
  next terminated hkind =>
    refine absurd ?_ h
    obtain ⟨kind, literal⟩ := l
    obtain rfl : kind = .string terminated := hstands.kind_eq.symm.trans hkind
    rw [hstands.source_eq]
    cases terminated <;> simp [Lexeme.text, TokenKind.enclose]
  next => rfl

/-- The last token of a text without quotes does not go on into one. -/
theorem tokenize_append_quote (hp : '\"' ∉ p) :
    tokenize (String.ofList (p ++ '\"' :: rest)) = (tokenize (String.ofList p)).dropLast ++
      (tokenize (String.ofList ('\"' :: rest))).map (Token.shift (byteLength p)) := by
  rw [String.ofList_append, ← utf8ByteSize_ofList, tokenize_append_iff_fits]
  intro t pre l post h
  by_cases hpost : post = []
  · subst hpost
    refine (TokenKind.admits_iff_not_goesOn h.fits).mpr fun hgoes => ?_
    have hstring := not_isString_of_not_mem (by simpa using hp)
      (mem_dropLast_tokenize_iff.mp h.mem_dropLast).1
    rw [String.toList_ofList, List.nil_append, List.head?_cons] at hgoes
    unfold Token.isString at hstring
    rw [h.kind_eq] at hstring
    cases hkind : l.kind with
    | string terminated => simp [hkind] at hstring
    | _ => simp [hkind, TokenKind.GoesOn, isWordChar, isNumberChar] at hgoes
  · exact h.fits.append hpost _

theorem tokenize_of_closed (hq : '\"' ∉ q) :
    tokenize (String.ofList ('\"' :: (q ++ '\"' :: rest))) =
      ⟨.string true, String.ofList q, ⟨0, byteLength q + 2⟩⟩ ::
        (tokenize (String.ofList rest)).map (Token.shift (byteLength q + 2)) := by
  have hfits : Lexeme.Fits ⟨.string true, q⟩ rest := ⟨q, hq, rfl⟩
  have htext : Lexeme.text ⟨.string true, q⟩ = '\"' :: (q ++ ['\"']) := rfl
  have hquote : '\"'.utf8Size = 1 := rfl
  have hsize : byteLength (Lexeme.text ⟨.string true, q⟩) = byteLength q + 2 := by
    rw [htext, byteLength_cons, byteLength_append, byteLength_cons, byteLength_nil, hquote]
    omega
  have htokens := tokens_of_lexeme [] hfits
  rw [List.nil_append, byteLength_nil, hsize, tokens_shift (byteLength q + 2), tokenAt, hsize,
    Nat.zero_add, htext] at htokens
  simpa [tokenize, ofSource] using htokens

theorem tokenize_of_opened (hq : '\"' ∉ q) :
    tokenize (String.ofList ('\"' :: q)) =
      [⟨.string false, String.ofList q, ⟨0, byteLength q + 1⟩⟩, .eof (byteLength q + 1)] := by
  have hfits : Lexeme.Fits ⟨.string false, q⟩ [] := ⟨q, hq, rfl, rfl⟩
  have htext : Lexeme.text ⟨.string false, q⟩ = '\"' :: q := rfl
  have hquote : '\"'.utf8Size = 1 := rfl
  have hsize : byteLength (Lexeme.text ⟨.string false, q⟩) = byteLength q + 1 := by
    rw [htext, byteLength_cons, hquote, Nat.add_comm]
  have htokens := tokens_of_lexeme [] hfits
  rw [List.nil_append, byteLength_nil, hsize, tokens_nil, tokenAt, hsize, Nat.zero_add,
    htext] at htokens
  simpa [tokenize, ofSource] using htokens

end

/-! ## The pieces -/

section

variable {p q : List Char} {pieces : List (List Char)}

theorem pieceOffset_cons (i : Nat) :
    pieceOffset (p :: pieces) (i + 1) = byteLength p + 1 + pieceOffset pieces i := by
  simp [pieceOffset]

theorem pieceOffset_zero : pieceOffset pieces 0 = 0 := rfl

theorem Token.shift_comp_shift (m n : Nat) : shift m ∘ shift n = shift (m + n) := by
  funext t
  simp only [Function.comp_apply, shift, Span.shift, Nat.add_assoc]

/-- A pair of pieces before the others moves what those make. -/
theorem pieceTokens_cons_cons {size : Nat} (hne : pieces ≠ []) (i : Nat) :
    pieceTokens (byteLength p + 1 + (byteLength q + 1) + size) (p :: q :: pieces) (i + 2) =
      (pieceTokens size pieces i).map
        (Token.shift (byteLength p + 1 + (byteLength q + 1))) := by
  have hoffset : pieceOffset (p :: q :: pieces) (i + 2) =
      byteLength p + 1 + (byteLength q + 1) + pieceOffset pieces i := by
    rw [pieceOffset_cons, pieceOffset_cons]
    omega
  unfold pieceTokens
  simp only [hoffset, List.getD_cons_succ, Nat.add_mod_right, List.length_cons]
  split
  next => rw [List.map_map, Token.shift_comp_shift]
  next hodd =>
    obtain ⟨r, pieces, rfl⟩ := List.exists_cons_of_ne_nil hne
    obtain ⟨j, rfl⟩ : ∃ j, i = j + 1 := ⟨i - 1, by omega⟩
    rw [pieceOffset_cons]
    split
    · rw [if_pos (by omega)]
      simp only [List.map_singleton, Token.shift, Span.shift, List.cons.injEq, Token.mk.injEq,
        Span.mk.injEq, and_true, true_and]
      omega
    · rw [if_neg (by omega)]
      simp only [List.map_singleton, Token.shift, Span.shift, List.cons.injEq, Token.mk.injEq,
        Span.mk.injEq, and_true, true_and]
      omega

theorem pieceTokens_zero (size : Nat) :
    pieceTokens size (p :: pieces) 0 = (tokenize (String.ofList p)).dropLast := by
  have hshift : Token.shift 0 = id := by
    funext t
    simp [Token.shift, Span.shift]
  simp [pieceTokens, pieceOffset_zero, hshift]

theorem pieceTokens_one (size : Nat) :
    pieceTokens size (p :: q :: pieces) 1 =
      [⟨.string (!pieces.isEmpty), String.ofList q, ⟨byteLength p,
        if pieces.isEmpty then size else byteLength p + 1 + byteLength q + 1⟩⟩] := by
  have hoffset : pieceOffset (p :: q :: pieces) 1 = byteLength p + 1 := by
    rw [pieceOffset_cons, pieceOffset_zero, Nat.add_zero]
  cases pieces <;> simp [pieceTokens, hoffset, utf8ByteSize_ofList]

theorem flatMap_pieceTokens_cons_cons {size : Nat} (hne : pieces ≠ []) :
    (List.range (p :: q :: pieces).length).flatMap
        (pieceTokens (byteLength p + 1 + (byteLength q + 1) + size) (p :: q :: pieces)) =
      (tokenize (String.ofList p)).dropLast ++
        ⟨.string true, String.ofList q, ⟨byteLength p, byteLength p + 1 + byteLength q + 1⟩⟩ ::
          ((List.range pieces.length).flatMap (pieceTokens size pieces)).map
            (Token.shift (byteLength p + 1 + (byteLength q + 1))) := by
  have hempty : pieces.isEmpty = false := by simpa using hne
  rw [List.length_cons, List.length_cons, List.range_succ_eq_map, List.range_succ_eq_map]
  simp only [List.flatMap_cons, List.map_cons, List.flatMap_map, pieceTokens_zero, Nat.zero_add,
    pieceTokens_one, pieceTokens_cons_cons hne, Nat.succ_eq_add_one, List.map_flatMap, hempty,
    Bool.not_false, Bool.false_eq_true, reduceIte, List.singleton_append]

end

theorem tokenize_eq_flatMap (cs : List Char) :
    tokenize (String.ofList cs) =
      (List.range (cs.splitOn '\"').length).flatMap
        (pieceTokens (byteLength cs) (cs.splitOn '\"')) ++ [.eof (byteLength cs)] := by
  have hquote : '\"'.utf8Size = 1 := rfl
  induction cs using pairs_of_quotes with
  | plain p hp =>
    obtain ⟨body, hbody, -⟩ := (reading_tokenize (String.ofList p)).exists_body
    rw [List.nil_append, String.toList_ofList] at hbody
    rw [List.splitOn_eq_singleton hp]
    simp [pieceTokens_zero, hbody]
  | opened p q hp hq =>
    rw [splitOn_of_opened hp hq, tokenize_append_quote hp, tokenize_of_opened hq]
    simp [List.range_succ, pieceTokens_zero, pieceTokens_one, Token.shift, Span.shift, Token.eof,
      hquote]
    omega
  | closed p q rest hp hq ih =>
    have hsize : byteLength (p ++ '\"' :: (q ++ '\"' :: rest)) =
        byteLength p + 1 + (byteLength q + 1) + byteLength rest := by
      simp only [byteLength_append, byteLength_cons, hquote]
      omega
    rw [splitOn_of_closed hp hq, tokenize_append_quote hp, tokenize_of_closed hq, ih, hsize,
      flatMap_pieceTokens_cons_cons (List.splitOn_ne_nil _ rest)]
    have hshift : byteLength p + (byteLength q + 2) = byteLength p + 1 + (byteLength q + 1) := by
      omega
    have hstring : Token.shift (byteLength p)
          ⟨.string true, String.ofList q, ⟨0, byteLength q + 2⟩⟩ =
        ⟨.string true, String.ofList q, ⟨byteLength p, byteLength p + 1 + byteLength q + 1⟩⟩ := by
      simp only [Token.shift, Span.shift, Nat.add_zero, hshift, Nat.add_assoc]
    rw [List.map_cons, hstring, List.map_map, Token.shift_comp_shift, hshift, List.map_append,
      List.append_assoc]
    rfl

/-! ## The strings -/

theorem not_mem_of_mem_splitOn {cs p : List Char} (h : p ∈ cs.splitOn '\"') : '\"' ∉ p := by
  induction cs using pairs_of_quotes with
  | plain q hq =>
    rw [List.splitOn_eq_singleton hq, List.mem_singleton] at h
    exact h ▸ hq
  | opened q r hq hr =>
    rw [splitOn_of_opened hq hr] at h
    rcases List.mem_cons.mp h with rfl | h
    · exact hq
    · exact List.mem_singleton.mp h ▸ hr
  | closed q r rest hq hr ih =>
    rw [splitOn_of_closed hq hr] at h
    rcases List.mem_cons.mp h with rfl | h
    · exact hq
    rcases List.mem_cons.mp h with rfl | h
    · exact hr
    · exact ih h

theorem length_splitOn (cs : List Char) : (cs.splitOn '\"').length = cs.count '\"' + 1 := by
  induction cs using pairs_of_quotes with
  | plain p hp => simp [List.splitOn_eq_singleton hp, List.count_eq_zero.mpr hp]
  | opened p q hp hq =>
    simp [splitOn_of_opened hp hq, List.count_eq_zero.mpr hp, List.count_eq_zero.mpr hq]
  | closed p q rest hp hq ih =>
    simp [splitOn_of_closed hp hq, List.count_eq_zero.mpr hp, List.count_eq_zero.mpr hq, ih]

section

variable {size i : Nat} {pieces : List (List Char)}

theorem not_isString_of_even (hfree : ∀ p ∈ pieces, '\"' ∉ p) (heven : i % 2 = 0) {t : Token}
    (ht : t ∈ pieceTokens size pieces i) : t.isString = false := by
  have hpiece : '\"' ∉ pieces.getD i [] := by
    rw [List.getD_eq_getElem?_getD]
    cases hget : pieces[i]? with
    | none => simp
    | some p => exact hfree p (List.mem_of_getElem? hget)
  unfold pieceTokens at ht
  rw [if_pos heven] at ht
  obtain ⟨u, hu, rfl⟩ := List.mem_map.mp ht
  have hkept : (u.shift (pieceOffset pieces i)).isString = u.isString := rfl
  rw [hkept]
  refine not_isString_of_not_mem ?_ (mem_dropLast_tokenize_iff.mp hu).1
  rwa [String.toList_ofList]

/-- Only a piece with no quote after it leaves its string open. -/
theorem exists_string_of_odd (size : Nat) (pieces : List (List Char)) (hodd : i % 2 = 1) :
    ∃ span, pieceTokens size pieces i =
      [⟨.string (i + 1 < pieces.length), String.ofList (pieces.getD i []), span⟩] := by
  unfold pieceTokens
  rw [if_neg (by omega)]
  split
  next hlt => exact ⟨_, by rw [decide_eq_true hlt]⟩
  next hlt => exact ⟨_, by rw [decide_eq_false hlt]⟩

theorem filter_isString_pieceTokens (hfree : ∀ p ∈ pieces, '\"' ∉ p) :
    ((pieceTokens size pieces i).filter Token.isString).map Token.literal =
      if i % 2 = 1 then [String.ofList (pieces.getD i [])] else [] := by
  split
  next hodd =>
    obtain ⟨span, htokens⟩ := exists_string_of_odd size pieces hodd
    rw [htokens]
    rfl
  next heven =>
    have hnone : (pieceTokens size pieces i).filter Token.isString = [] := by
      rw [List.filter_eq_nil_iff]
      intro t ht
      simp [not_isString_of_even hfree (by omega) ht]
    rw [hnone, List.map_nil]

theorem closed_of_mem_pieceTokens (hfree : ∀ p ∈ pieces, '\"' ∉ p) (hlt : i + 1 < pieces.length)
    {t : Token} (ht : t ∈ pieceTokens size pieces i) : t.kind ≠ .string false := by
  intro hkind
  rcases Nat.mod_two_eq_zero_or_one i with heven | hodd
  · have := not_isString_of_even hfree heven ht
    simp [Token.isString, hkind] at this
  · obtain ⟨span, htokens⟩ := exists_string_of_odd size pieces hodd
    rw [htokens, List.mem_singleton] at ht
    simp [ht, hlt] at hkind

end

theorem flatMap_ite {α β : Type} (p : α → Bool) (f : α → β) (l : List α) :
    (l.flatMap fun a => if p a then [f a] else []) = (l.filter p).map f := by
  induction l with
  | nil => rfl
  | cons a l ih => cases hp : p a <;> simp [hp, ih]

theorem tokenize_eq_pieces (source : String) :
    tokenize source = (List.range (quotePieces source).length).flatMap
      (pieceTokens source.utf8ByteSize (quotePieces source)) ++ [.eof source.utf8ByteSize] := by
  have h := tokenize_eq_flatMap source.toList
  rwa [String.ofList_toList, byteLength_toList] at h

theorem filter_isString_tokenize (source : String) :
    ((tokenize source).filter Token.isString).map Token.literal =
      (innerPieces (quotePieces source)).map String.ofList := by
  have hfree : ∀ p ∈ quotePieces source, '\"' ∉ p := fun p hp => not_mem_of_mem_splitOn hp
  have hodd := flatMap_ite (fun i : Nat => decide (i % 2 = 1))
    (fun i => String.ofList ((quotePieces source).getD i []))
    (List.range (quotePieces source).length)
  simp only [decide_eq_true_eq] at hodd
  rw [tokenize_eq_pieces, List.filter_append, List.filter_flatMap, List.map_append,
    List.map_flatMap]
  simp only [filter_isString_pieceTokens hfree, hodd, innerPieces, List.map_map]
  exact List.append_nil _

/-- All pieces but the last one make closed strings only. -/
theorem exists_tokenize_eq_append (source : String) :
    ∃ init, (∀ t ∈ init, t.kind ≠ .string false) ∧
      tokenize source = init ++ pieceTokens source.utf8ByteSize (quotePieces source)
        (source.toList.count '\"') ++ [.eof source.utf8ByteSize] := by
  have hfree : ∀ p ∈ quotePieces source, '\"' ∉ p := fun p hp => not_mem_of_mem_splitOn hp
  have hlength : (quotePieces source).length = source.toList.count '\"' + 1 :=
    length_splitOn source.toList
  refine ⟨(List.range (source.toList.count '\"')).flatMap
    (pieceTokens source.utf8ByteSize (quotePieces source)), fun t ht => ?_, ?_⟩
  · obtain ⟨i, hi, ht⟩ := List.mem_flatMap.mp ht
    have hlt := List.mem_range.mp hi
    exact closed_of_mem_pieceTokens hfree (by omega) ht
  · rw [tokenize_eq_pieces, hlength, List.range_succ, List.flatMap_append, List.flatMap_singleton]

/-- An open string is the last token before the end, and there is one after an odd last quote. -/
theorem open_string_of_tokenize (source : String) :
    (tokenize source).countP (fun t => t.kind = .string false) = source.toList.count '\"' % 2 ∧
      ∀ t ∈ tokenize source, t.kind = .string false →
        (tokenize source).dropLast.getLast? = some t := by
  obtain ⟨init, hinit, htokens⟩ := exists_tokenize_eq_append source
  have hlength : (quotePieces source).length = source.toList.count '\"' + 1 :=
    length_splitOn source.toList
  have hcount : init.countP (fun t => t.kind = .string false) = 0 := by
    rw [List.countP_eq_zero]
    simpa using hinit
  rcases Nat.mod_two_eq_zero_or_one (source.toList.count '\"') with heven | hodd
  · have hlast : ∀ t ∈ pieceTokens source.utf8ByteSize (quotePieces source)
        (source.toList.count '\"'), t.kind ≠ .string false := fun t ht hkind => by
      have := not_isString_of_even (fun p hp => not_mem_of_mem_splitOn hp) heven ht
      simp [Token.isString, hkind] at this
    have hnone : ∀ t ∈ tokenize source, t.kind ≠ .string false := by
      intro t ht
      rw [htokens, List.mem_append, List.mem_append, List.mem_singleton] at ht
      rcases ht with (ht | ht) | rfl
      · exact hinit t ht
      · exact hlast t ht
      · simp [Token.eof]
    refine ⟨?_, fun t ht hkind => absurd hkind (hnone t ht)⟩
    rw [heven, List.countP_eq_zero]
    simpa using hnone
  · obtain ⟨span, hlast⟩ := exists_string_of_odd source.utf8ByteSize (quotePieces source) hodd
    rw [decide_eq_false (by omega)] at hlast
    rw [hlast] at htokens
    rw [htokens, List.dropLast_concat, List.getLast?_concat]
    constructor
    · rw [List.countP_append, List.countP_append, hcount, hodd]
      rfl
    · intro t ht hkind
      rw [List.mem_append, List.mem_append, List.mem_singleton, List.mem_singleton] at ht
      rcases ht with (ht | rfl) | rfl
      · exact absurd hkind (hinit t ht)
      · rfl
      · cases hkind

theorem tokenize_quotePieces (source : String) :
    (quotePieces source).length = source.toList.count '\"' + 1 ∧
      tokenize source = (List.range (quotePieces source).length).flatMap
        (pieceTokens source.utf8ByteSize (quotePieces source)) ++ [.eof source.utf8ByteSize] ∧
      ((tokenize source).filter Token.isString).map Token.literal =
        (innerPieces (quotePieces source)).map String.ofList ∧
      (tokenize source).countP (fun t => t.kind = .string false) = source.toList.count '\"' % 2 ∧
      ∀ t ∈ tokenize source, t.kind = .string false →
        (tokenize source).dropLast.getLast? = some t :=
  ⟨length_splitOn source.toList, tokenize_eq_pieces source, filter_isString_tokenize source,
    open_string_of_tokenize source⟩

example : innerPieces (quotePieces "a\"b\"c\"d") = [['b'], ['d']] := by decide

end ScriptFrontend
