import Mathlib.Data.List.Basic
import ScriptFrontend.Diagnostic
import ScriptFrontend.Proofs.Diagnostic.Fault

/-!
# The faults that `lex` reports

`FaultList source faults` says that the list is made of the faults of the source, each of them once
and in the order of their places. `lex` refuses a source with such a list, unless it is empty, and
`lexWithReports` with one report for each of its members (`lex_reports_faults`).
-/

namespace ScriptFrontend

open Text Cursor

structure FaultList (source : String) (faults : List Diagnostic) : Prop where
  mem_iff : ∀ d, d ∈ faults ↔ Fault source.toList d
  nodup : faults.Nodup
  nonempty : ∀ d ∈ faults, d.span.start < d.span.stop
  inside : ∀ d ∈ faults, d.span.stop ≤ source.utf8ByteSize
  ordered : faults.Pairwise fun d e => d.span.stop ≤ e.span.start
  /-- One of the quotes is left over. -/
  unterminated_iff : (∃ place, .unterminatedString place ∈ faults) ↔
    source.toList.count '\"' % 2 = 1
  /-- A string without an end takes all that follows, so nothing else can. -/
  unterminated_last : ∀ place, .unterminatedString place ∈ faults →
    faults.getLast? = some (.unterminatedString place)

/-! ## Places of faults -/

namespace Fault

variable {source : List Char} {d : Diagnostic}

theorem exists_place (h : Fault source d) : ∃ before text after,
    source = before ++ text ++ after ∧ text ≠ [] ∧
      d.place = ⟨byteLength before, byteLength text⟩ := by
  cases h with
  | @illegalCharacter before after c hsource _ _ =>
    exact ⟨before, [c], after, by simp [hsource], by simp, rfl⟩
  | @malformedNumber before run after hsource _ _ hrun _ =>
    exact ⟨before, run, after, hsource, hrun.ne_nil, rfl⟩
  | @unterminatedString before body hsource _ _ =>
    exact ⟨before, '\"' :: body, [], by simp [hsource], by simp, rfl⟩

theorem start_lt_stop (h : Fault source d) : d.span.start < d.span.stop := by
  obtain ⟨before, text, after, -, hne, hplace⟩ := h.exists_place
  have hpos := byteLength_pos_iff.mpr hne
  rw [Diagnostic.span, hplace]
  show byteLength before < byteLength before + byteLength text
  omega

theorem stop_le (h : Fault source d) : d.span.stop ≤ byteLength source := by
  obtain ⟨before, text, after, rfl, -, hplace⟩ := h.exists_place
  rw [Diagnostic.span, hplace, byteLength_append _ after, byteLength_append]
  exact Nat.le_add_right _ _

theorem stop_unterminatedString {place : Extent} (h : Fault source (.unterminatedString place)) :
    place.span.stop = byteLength source := by
  cases h with
  | unterminatedString hsource _ _ => rw [hsource, byteLength_append]; rfl

/-- The last quote of a text that has one. -/
theorem exists_last_quote (h : '\"' ∈ source) :
    ∃ before body, source = before ++ '\"' :: body ∧ '\"' ∉ body := by
  obtain ⟨body, before, hsource, hbody⟩ :=
    List.eq_append_cons_of_mem (List.mem_reverse.mpr h)
  refine ⟨before.reverse, body.reverse, ?_, by simpa using hbody⟩
  rw [← List.reverse_reverse source, hsource]
  simp

theorem exists_unterminatedString_iff :
    (∃ place, Fault source (.unterminatedString place)) ↔ source.count '\"' % 2 = 1 := by
  constructor
  · rintro ⟨place, ⟨⟩⟩
    assumption
  · intro hodd
    have hmem : '\"' ∈ source := List.count_pos_iff.mp (by omega)
    obtain ⟨before, body, hsource, hbody⟩ := exists_last_quote hmem
    exact ⟨_, .unterminatedString hsource hodd hbody⟩

end Fault

/-! ## The list -/

namespace Diagnostic

theorem place_of_ofToken? {t : Token} {d : Diagnostic} (h : ofToken? t = some d) :
    d.place = t.span.extent := by
  rcases ofToken?_eq_some_iff.mp h with ⟨-, rfl⟩ | ⟨-, rfl⟩ | ⟨-, -, rfl⟩ <;> rfl

theorem mem_check_iff {source : String} {d : Diagnostic} :
    d ∈ check (tokenize source) ↔ Fault source.toList d := by
  constructor
  · intro h
    obtain ⟨t, ht, hd⟩ := List.mem_filterMap.mp h
    rcases mem_tokenize_cases ht with rfl | ⟨-, before, l, after, hstands⟩
    · cases hd
    · exact hstands.fault hd
  · rintro (⟨hsource, hout, hc⟩ | ⟨hsource, hout, hleft, hrun, hbad⟩ | ⟨hsource, hodd, hbody⟩)
    · exact Fault.illegalCharacter_reported hsource hout hc
    · exact Fault.malformedNumber_reported hsource hout hleft hrun hbad
    · exact Fault.unterminatedString_reported hsource hodd hbody

/-- The faults are in order since their tokens are. -/
theorem pairwise_check (source : String) :
    (check (tokenize source)).Pairwise fun d e => d.span.stop ≤ e.span.start := by
  have htokens : (tokenize source).Pairwise fun t u =>
      t.span.start ≤ t.span.stop ∧ t.span.stop ≤ u.span.start := by
    refine (reading_tokenize source).pairwise.imp_of_mem fun ht _ hle => ⟨?_, hle⟩
    rcases mem_tokenize_cases ht with rfl | ⟨-, before, l, after, hstands⟩
    · exact Nat.le_refl _
    · exact Nat.le_of_lt hstands.start_lt_stop
  refine htokens.filterMap ofToken? fun t u htu d hd e he => ?_
  obtain ⟨hle, hlt⟩ := htu
  rw [span, span, place_of_ofToken? hd, place_of_ofToken? he, Span.span_extent, Span.span_extent]
  show max t.span.start t.span.stop ≤ u.span.start
  omega

/-- Nothing comes after a fault that goes to the end of the source. -/
theorem getLast?_check {source : String} {d : Diagnostic} (hd : d ∈ check (tokenize source))
    (hstop : d.span.stop = byteLength source.toList) :
    (check (tokenize source)).getLast? = some d := by
  rcases List.eq_nil_or_concat' (check (tokenize source)) with hnil | ⟨init, e, hconcat⟩
  · rw [hnil] at hd
    cases hd
  have he : Fault source.toList e := mem_check_iff.mp (by simp [hconcat])
  have hlt := he.start_lt_stop
  have hle := he.stop_le
  have hordered := pairwise_check source
  rw [hconcat, List.pairwise_append] at hordered
  rw [hconcat, List.mem_append, List.mem_singleton] at hd
  rcases hd with hd | rfl
  · have hbefore := hordered.2.2 d hd e (List.mem_singleton_self e)
    omega
  · rw [hconcat, List.getLast?_concat]

theorem faultList_check (source : String) : FaultList source (check (tokenize source)) := by
  have hordered := pairwise_check source
  exact {
    mem_iff := fun d => mem_check_iff
    nodup := hordered.imp_of_mem fun {d e} hd _ hle heq => by
      have hlt := (mem_check_iff.mp hd).start_lt_stop
      subst heq
      omega
    nonempty := fun d hd => (mem_check_iff.mp hd).start_lt_stop
    inside := fun d hd => by
      rw [← byteLength_toList]
      exact (mem_check_iff.mp hd).stop_le
    ordered := hordered
    unterminated_iff := by
      simp only [mem_check_iff]
      exact Fault.exists_unterminatedString_iff
    unterminated_last := fun place hd =>
      getLast?_check hd (mem_check_iff.mp hd).stop_unterminatedString }

end Diagnostic

theorem acceptUnless_eq (tokens : List Token) (faults : List Diagnostic) :
    acceptUnless tokens faults = if faults = [] then .ok tokens else .error faults := by
  cases faults <;> rfl

theorem lex_eq (source : String) : lex source =
    if Diagnostic.check (tokenize source) = [] then .ok (tokenize source)
    else .error (Diagnostic.check (tokenize source)) :=
  acceptUnless_eq _ _

theorem lexWithReports_eq (name source : String) : lexWithReports name source =
    if Diagnostic.check (tokenize source) = [] then .ok (tokenize source)
    else .error (Report.ofFaults name source (Diagnostic.check (tokenize source))) := by
  rw [lexWithReports, lex_eq]
  split <;> rfl

theorem lex_reports_faults (name source : String) :
    ∃ faults, FaultList source faults ∧
      lex source = (if faults = [] then .ok (tokenize source) else .error faults) ∧
      lexWithReports name source = if faults = [] then .ok (tokenize source)
        else .error (faults.map fun d => ⟨d, name, source⟩) :=
  ⟨_, Diagnostic.faultList_check source, lex_eq source, lexWithReports_eq name source⟩

end ScriptFrontend
