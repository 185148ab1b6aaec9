import Mathlib.Tactic.Choose
import HardcodedText.Pattern.Regex.Match

/-!
# Matching goes forward

An expression tries a list of places one after another, none of which lies before the place where it
begins or after the end of the text (`Regex.onward_attempt`).  So repetitions without a bound come
to an end by themselves, and it makes no difference that their number is bounded by the size of the
text (`Regex.attempt_times`).
-/

namespace HardcodedText.Regex

namespace Step

/-- `step.OnwardFrom size p`: from `p`, a step tries a list of places one after another, which lie
neither before `p` nor after place `size`. -/
def OnwardFrom (size : Nat) (step : Step) (p : Progress) : Prop :=
  ∃ qs : List Progress, (∀ k, step p k = qs.findSome? k) ∧
    ∀ q ∈ qs, p.index ≤ q.index ∧ q.index ≤ size

/-- A step goes forward from every place up to `size`. -/
def Onward (size : Nat) (step : Step) : Prop :=
  ∀ p : Progress, p.index ≤ size → step.OnwardFrom size p

variable {size : Nat} {step step' : Step} {p : Progress} {k k' : Progress → Option Progress}

theorem findSome?_congr {qs : List Progress} (h : ∀ q ∈ qs, k q = k' q) :
    qs.findSome? k = qs.findSome? k' := by
  induction qs with
  | nil => rfl
  | cons q qs ih =>
    obtain ⟨hq, hqs⟩ := List.forall_mem_cons.mp h
    rw [List.findSome?_cons, List.findSome?_cons, hq, ih hqs]

theorem findSome?_flatMap (next : Progress → List Progress) (qs : List Progress) :
    (qs.flatMap next).findSome? k = qs.findSome? fun q ↦ (next q).findSome? k := by
  induction qs with
  | nil => rfl
  | cons q qs ih =>
    rw [List.flatMap_cons, List.findSome?_append, List.findSome?_cons, ih]
    cases (next q).findSome? k <;> rfl

/-- What follows a step matters only where the step leads. -/
theorem Onward.congr (h : Onward size step) (hp : p.index ≤ size)
    (hk : ∀ q, p.index ≤ q.index → q.index ≤ size → k q = k' q) : step p k = step p k' := by
  obtain ⟨qs, htries, hqs⟩ := h p hp
  rw [htries k, htries k']
  exact findSome?_congr fun q hq ↦ hk q (hqs q hq).1 (hqs q hq).2

theorem Onward.le_of_eq_some (h : Onward size step) (hp : p.index ≤ size) {q : Progress}
    (hq : step p some = some q) : p.index ≤ q.index ∧ q.index ≤ size := by
  obtain ⟨qs, htries, hqs⟩ := h p hp
  rw [htries some] at hq
  obtain ⟨q', hmem, ⟨⟩⟩ := List.exists_of_findSome?_eq_some hq
  exact hqs q hmem

/-! ## Ways to put steps together -/

theorem OnwardFrom.none (h : ∀ k, step p k = none) : step.OnwardFrom size p :=
  ⟨[], h, fun _ hq ↦ absurd hq List.not_mem_nil⟩

theorem OnwardFrom.one (q : Progress) (h : ∀ k, step p k = k q) (hpq : p.index ≤ q.index)
    (hq : q.index ≤ size) : step.OnwardFrom size p := by
  refine ⟨[q], fun k ↦ ?_, fun q' hq' ↦ ?_⟩
  · rw [h, List.findSome?_cons]
    cases k q <;> rfl
  · obtain rfl := List.mem_singleton.mp hq'
    exact ⟨hpq, hq⟩

theorem OnwardFrom.of_eq (h : ∀ k, step p k = step' p k) (h' : step'.OnwardFrom size p) :
    step.OnwardFrom size p := by
  obtain ⟨qs, htries, hqs⟩ := h'
  exact ⟨qs, fun k ↦ (h k).trans (htries k), hqs⟩

theorem onward_stay : Onward size fun p k ↦ k p :=
  fun p hp ↦ .one p (fun _ ↦ rfl) (Nat.le_refl _) hp

theorem Onward.seq (h : Onward size step) (h' : Onward size step') :
    Onward size fun p k ↦ step p fun q ↦ step' q k := by
  choose! next htries hnext using h'
  intro p hp
  obtain ⟨qs, hqs, hmem⟩ := h p hp
  refine ⟨qs.flatMap next, fun k ↦ ?_, fun q hq ↦ ?_⟩
  · rw [findSome?_flatMap]
    refine (hqs _).trans (findSome?_congr fun q hq ↦ ?_)
    exact htries q (hmem q hq).2 k
  · obtain ⟨q', hq', hq⟩ := List.mem_flatMap.mp hq
    obtain ⟨hpq', hq'size⟩ := hmem q' hq'
    obtain ⟨hq'q, hqsize⟩ := hnext q' hq'size q hq
    exact ⟨Nat.le_trans hpq' hq'q, hqsize⟩

theorem Onward.alt (h : Onward size step) (h' : Onward size step') :
    Onward size fun p k ↦ step p k <|> step' p k := by
  intro p hp
  obtain ⟨qs, hqs, hmem⟩ := h p hp
  obtain ⟨qs', hqs', hmem'⟩ := h' p hp
  refine ⟨qs ++ qs', fun k ↦ ?_, fun q hq ↦ ?_⟩
  · simp only [hqs k, hqs' k, List.findSome?_append]
    cases qs.findSome? k <;> rfl
  · rcases List.mem_append.mp hq with hq | hq
    · exact hmem q hq
    · exact hmem' q hq

theorem Onward.commit (h : Onward size step) : Onward size (commit step) := by
  intro p hp
  cases hq : step p some with
  | none => exact .none fun k ↦ by rw [Step.commit, hq]; rfl
  | some q =>
    obtain ⟨hpq, hqsize⟩ := h.le_of_eq_some hp hq
    exact .one q (fun k ↦ by rw [Step.commit, hq]; rfl) hpq hqsize

/-! ## Repeated steps -/

theorem Onward.repeated (h : Onward size step) (n : Nat) : Onward size (repeated step n) := by
  induction n with
  | zero => exact onward_stay
  | succ n ih => exact h.seq ih

theorem atMost_of_last (eager : Bool) (n : Nat) {last : Option Nat}
    (hlast : last = some p.index) : atMost step eager n last p k = k p := by
  cases n with
  | zero => rfl
  | succ n => rw [atMost, if_pos hlast]

theorem Onward.atMost (h : Onward size step) (eager : Bool) (n : Nat) (last : Option Nat) :
    Onward size (atMost step eager n last) := by
  induction n generalizing last with
  | zero => exact onward_stay
  | succ n ih =>
    intro p hp
    by_cases hlast : last = some p.index
    · exact .of_eq (fun k ↦ atMost_of_last eager (n + 1) hlast) (onward_stay p hp)
    · have hmore := h.seq (ih (some p.index))
      cases eager with
      | true =>
        refine .of_eq (fun k ↦ ?_) (hmore.alt onward_stay p hp)
        rw [Step.atMost, if_neg hlast, if_pos rfl]
      | false =>
        refine .of_eq (fun k ↦ ?_) (onward_stay.alt hmore p hp)
        rw [Step.atMost, if_neg hlast, if_neg Bool.false_ne_true]

theorem Onward.between (h : Onward size step) (eager : Bool) (least more : Nat) :
    Onward size (between step eager least more) :=
  (h.repeated least).seq (h.atMost eager more none)

theorem Onward.times (h : Onward size step) (kind : RepeatKind) (least more : Nat) :
    Onward size (times kind step least more) := by
  cases kind with
  | greedy => exact h.between true least more
  | lazy => exact h.between false least more
  | possessive => exact (h.commit.between true least more).commit

theorem some_eq_or_lt {i j n : Nat} (h : size < i + (n + 1)) (hij : i ≤ j) :
    some i = some j ∨ size < j + n := by
  rw [Option.some_inj]
  omega

/-- No more steps can be taken than there are places left, as each leads on but for one that may be
the last; so two bounds that are not less make no difference. -/
theorem atMost_eq_atMost (h : Onward size step) (eager : Bool) (n m : Nat) (last : Option Nat)
    (hp : p.index ≤ size) (hn : last = some p.index ∨ size < p.index + n)
    (hm : last = some p.index ∨ size < p.index + m) :
    atMost step eager n last p k = atMost step eager m last p k := by
  induction n generalizing m last p with
  | zero =>
    have hlast : last = some p.index := hn.resolve_right (by omega)
    rw [atMost_of_last eager 0 hlast, atMost_of_last eager m hlast]
  | succ n ih =>
    by_cases hlast : last = some p.index
    · rw [atMost_of_last eager _ hlast, atMost_of_last eager m hlast]
    · obtain ⟨m, rfl⟩ : ∃ m', m = m' + 1 := ⟨m - 1, by have := hm.resolve_left hlast; omega⟩
      have hmore : (step p fun q ↦ atMost step eager n (some p.index) q k) =
          step p fun q ↦ atMost step eager m (some p.index) q k := by
        refine h.congr hp fun q hpq hq ↦ ih m (some p.index) hq ?_ ?_
        · exact some_eq_or_lt (hn.resolve_left hlast) hpq
        · exact some_eq_or_lt (hm.resolve_left hlast) hpq
      rw [atMost, atMost, if_neg hlast, if_neg hlast, hmore]

theorem between_eq_between (h : Onward size step) (eager : Bool) (least : Nat) {n m : Nat}
    (hp : p.index ≤ size) (hn : size < n) (hm : size < m) :
    between step eager least n p k = between step eager least m p k :=
  (h.repeated least).congr hp fun q _ hq ↦
    atMost_eq_atMost h eager n m none hq (.inr (by omega)) (.inr (by omega))

theorem times_eq_times (h : Onward size step) (kind : RepeatKind) (least : Nat) {n m : Nat}
    (hp : p.index ≤ size) (hn : size < n) (hm : size < m) :
    times kind step least n p k = times kind step least m p k := by
  cases kind with
  | greedy => exact between_eq_between h true least hp hn hm
  | lazy => exact between_eq_between h false least hp hn hm
  | possessive =>
    exact congrArg (Option.bind · k) (between_eq_between h.commit true least hp hn hm)

/-! ## Single steps -/

variable {text : Array Char}

theorem onward_character (holds : Char → Bool) : Onward text.size (character text holds) := by
  intro p hp
  cases hc : text[p.index]? with
  | none => exact .none fun k ↦ by rw [character, hc]
  | some c =>
    obtain ⟨hlt, -⟩ := Array.getElem?_eq_some_iff.mp hc
    cases hholds : holds c with
    | false => exact .none fun k ↦ by simp only [character, hc, hholds]; rfl
    | true =>
      refine .one { p with index := p.index + 1 } (fun k ↦ ?_) (Nat.le_succ _) hlt
      simp only [character, hc, hholds]
      rfl

theorem onward_characters (form : Char → Nat) (other : List Char) :
    Onward text.size (characters text form other) := by
  intro p hp
  by_cases h : ((text.toList.drop p.index).take other.length).map form = other.map form
  · refine .one { p with index := p.index + other.length } (fun k ↦ ?_) (Nat.le_add_right _ _) ?_
    · rw [characters]
      exact if_pos h
    · have hlength := congrArg List.length h
      simp only [List.length_map, List.length_take, List.length_drop, Array.length_toList]
        at hlength
      dsimp only
      omega
  · exact .none fun k ↦ by rw [characters]; exact if_neg h

theorem onward_look (negated : Bool) (found : Option Progress) :
    Onward text.size (look negated found) := by
  intro p hp
  cases found with
  | none =>
    cases negated with
    | false => exact .none fun _ ↦ rfl
    | true => exact .one p (fun _ ↦ rfl) (Nat.le_refl _) hp
  | some q =>
    cases negated with
    | false => exact .one { q with index := p.index } (fun _ ↦ rfl) (Nat.le_refl _) hp
    | true => exact .none fun _ ↦ rfl

end Step

open Step

variable {text : Array Char} {p : Progress} {k : Progress → Option Progress}

/-- **An expression goes forward.**  From a place in the text it tries places one after another,
none of which lies further back or beyond the end. -/
theorem onward_attempt (flags : List RegexFlag) (r : Regex) :
    Onward text.size (attempt text flags r) := by
  induction r generalizing flags with
  | empty => exact onward_stay
  | anyChar => exact onward_character _
  | literal negated code => exact onward_character _
  | oneOf set => exact onward_character _
  | anchor condition =>
    intro p hp
    by_cases h : condition.holds (flags.contains .multiLine) (attempt.ascii flags) text p.index
    · exact .one p (fun k ↦ by rw [attempt]; exact if_pos h) (Nat.le_refl _) hp
    · exact .none fun k ↦ by rw [attempt]; exact if_neg h
  | reference group =>
    intro p hp
    cases hspan : p.span? group with
    | none => exact .none fun k ↦ by rw [attempt, hspan]
    | some span =>
      refine .of_eq (fun k ↦ ?_) (onward_characters (attempt.form flags)
        ((text.toList.drop span.1).take (span.2 - span.1)) p hp)
      rw [attempt, hspan]
  | seq first second ihFirst ihSecond => exact (ihFirst flags).seq (ihSecond flags)
  | alt left right ihLeft ihRight => exact (ihLeft flags).alt (ihRight flags)
  | capture group inner ih =>
    intro p hp
    have hopen : Onward text.size fun p k ↦
        k { p with opened := (group, p.index) :: p.opened } :=
      fun p hp ↦ .one _ (fun _ ↦ rfl) (Nat.le_refl _) hp
    have hclose : Onward text.size fun p k ↦
        k { p with closed := (group, p.index) :: p.closed } :=
      fun p hp ↦ .one _ (fun _ ↦ rfl) (Nat.le_refl _) hp
    exact (hopen.seq ((ih flags).seq hclose)) p hp
  | flagged on off inner ih => exact ih (RegexFlag.change on off flags)
  | atomic inner ih => exact (ih flags).commit
  | times kind inner least most ih => exact fun p hp ↦ (ih flags).times kind least _ p hp
  | look negated behind inner ih => exact fun p hp ↦ onward_look negated _ p hp
  | conditional group yes no ihYes ihNo =>
    intro p hp
    cases h : (p.span? group).isSome with
    | true => exact .of_eq (fun k ↦ by rw [attempt, h]; rfl) (ihYes flags p hp)
    | false => exact .of_eq (fun k ↦ by rw [attempt, h]; rfl) (ihNo flags p hp)

/-- **Repetitions are bounded only by what is asked for.**  That no more of them are tried than the
text has places makes no difference: with a bound, trying that many comes to the same, and without
one, trying any number that is large enough. -/
theorem attempt_times (flags : List RegexFlag) (kind : RepeatKind) (inner : Regex) (least : Nat)
    (hp : p.index ≤ text.size) :
    (∀ most, attempt text flags (.times kind inner least (some most)) p k =
      Step.times kind (attempt text flags inner) least (most - least) p k) ∧
    ∀ n, text.size < n → attempt text flags (.times kind inner least none) p k =
      Step.times kind (attempt text flags inner) least n p k := by
  refine ⟨fun most ↦ ?_, fun n hn ↦ ?_⟩
  · rw [attempt]
    by_cases h : most - least ≤ text.size
    · rw [Nat.min_eq_left (by omega)]
    · exact times_eq_times (onward_attempt flags inner) kind least hp (by omega) (by omega)
  · rw [attempt]
    exact times_eq_times (onward_attempt flags inner) kind least hp (Nat.lt_succ_self _) hn

end HardcodedText.Regex
