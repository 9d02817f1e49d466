import Mathlib.Data.List.Basic

/-!
# Runs that may fail

A run that goes well has gone well at each of its steps.

## Main results

* `Except.bind_eq_ok_iff` — the first step of a run that goes well.
* `Except.mapM_eq_ok`, `Except.exists_of_mem_mapM` — a run over a list that goes well at each
  member, and what it gives.
* `Except.filterM_eq_ok`, `Except.filterM_of_ok` — what a test that may fail lets through.
* `Except.foldlM_keeps` — **what each step keeps, a run keeps.**
-/

namespace ClassLineage
namespace Except

variable {α β ε : Type}

/-- A run that goes well has a first step that does, and goes well from there. -/
theorem bind_eq_ok_iff {x : Except ε α} {f : α → Except ε β} {b : β} :
    x >>= f = .ok b ↔ ∃ a, x = .ok a ∧ f a = .ok b := by
  cases x with
  | error e => simp [bind, Except.bind]
  | ok a => simp [bind, Except.bind]

/-- Other words for the errors of a run are other words for those of its steps. -/
theorem mapError_bind {ε' : Type} (x : Except ε α) (f : α → Except ε β) (word : ε → ε') :
    (x >>= f).mapError word = x.mapError word >>= fun a => (f a).mapError word := by
  cases x <;> rfl

/-- What is done with each member of a list goes well if it does with each. -/
theorem mapM_eq_ok {f : α → Except ε β} {g : α → β} {l : List α}
    (h : ∀ a ∈ l, f a = .ok (g a)) : l.mapM f = .ok (l.map g) := by
  induction l with
  | nil => rfl
  | cons a l ih =>
    rw [List.mapM_cons, h a List.mem_cons_self,
      ih fun b hb => h b (List.mem_cons_of_mem _ hb)]
    rfl

theorem mapM_map_eq_ok {γ : Type} {f : β → Except ε γ} {g : α → β} {k : α → γ} {l : List α}
    (h : ∀ a ∈ l, f (g a) = .ok (k a)) : (l.map g).mapM f = .ok (l.map k) := by
  rw [List.mapM_map]
  exact mapM_eq_ok h

theorem mapM_append_eq_ok {f : α → Except ε β} {l more : List α} {found others : List β}
    (h : l.mapM f = .ok found) (hmore : more.mapM f = .ok others) :
    (l ++ more).mapM f = .ok (found ++ others) := by
  rw [List.mapM_append, h, hmore]
  rfl

/-- Each result of a run over a list is that of a member. -/
theorem exists_of_mem_mapM {f : α → Except ε β} {l : List α} {found : List β} {b : β}
    (h : l.mapM f = .ok found) (hb : b ∈ found) : ∃ a ∈ l, f a = .ok b := by
  induction l generalizing found with
  | nil =>
    obtain rfl := Except.ok.inj h
    exact absurd hb List.not_mem_nil
  | cons a l ih =>
    rw [List.mapM_cons] at h
    obtain ⟨first, hfirst, h⟩ := bind_eq_ok_iff.mp h
    obtain ⟨rest, hrest, h⟩ := bind_eq_ok_iff.mp h
    obtain rfl := Except.ok.inj h
    rcases List.mem_cons.mp hb with rfl | hb
    · exact ⟨a, List.mem_cons_self, hfirst⟩
    · obtain ⟨c, hc, hfound⟩ := ih hrest hb
      exact ⟨c, List.mem_cons_of_mem _ hc, hfound⟩

section Filter

variable {test : α → Except ε Bool} {l acc found : List α}

/-- The test goes well and lets the member through. -/
def passes (test : α → Except ε Bool) (a : α) : Bool :=
  match test a with
  | .ok holds => holds
  | .error _ => false

/-- While members are tested, those let through so far stand in front, the last one first. -/
theorem filterAuxM_eq_ok (h : List.filterAuxM test l acc = .ok found) :
    (∀ a ∈ l, test a = .ok (passes test a)) ∧ found = (l.filter (passes test)).reverse ++ acc := by
  induction l generalizing acc with
  | nil => exact ⟨fun a ha => absurd ha List.not_mem_nil, (Except.ok.inj h).symm⟩
  | cons b l ih =>
    rw [List.filterAuxM] at h
    obtain ⟨holds, hb, h⟩ := bind_eq_ok_iff.mp h
    have hpasses : passes test b = holds := by rw [passes, hb]
    obtain ⟨hall, hfound⟩ := ih h
    refine ⟨fun a ha => ?_, ?_⟩
    · rcases List.mem_cons.mp ha with rfl | ha
      · rw [hb, hpasses]
      · exact hall a ha
    · rw [hfound, List.filter_cons, hpasses]
      cases holds with
      | true => rw [cond_true, if_pos rfl, List.reverse_cons, List.append_assoc]; rfl
      | false => rw [cond_false, if_neg Bool.false_ne_true]

/-- A test that never fails lets through what a filter does, in order. -/
theorem filterM_eq_ok (h : l.filterM test = .ok found) :
    (∀ a ∈ l, test a = .ok (passes test a)) ∧ found = l.filter (passes test) := by
  rw [List.filterM] at h
  obtain ⟨kept, hkept, h⟩ := bind_eq_ok_iff.mp h
  obtain ⟨hall, rfl⟩ := filterAuxM_eq_ok hkept
  obtain rfl := Except.ok.inj h
  exact ⟨hall, by rw [List.append_nil, List.reverse_reverse]⟩

theorem filterAuxM_of_ok {p : α → Bool} (h : ∀ a ∈ l, test a = .ok (p a)) :
    List.filterAuxM test l acc = .ok ((l.filter p).reverse ++ acc) := by
  induction l generalizing acc with
  | nil => rfl
  | cons a l ih =>
    have ih := @ih (bif p a then a :: acc else acc) fun b hb => h b (List.mem_cons_of_mem _ hb)
    rw [List.filterAuxM, h a List.mem_cons_self]
    show List.filterAuxM test l (bif p a then a :: acc else acc) = _
    rw [ih, List.filter_cons]
    cases p a with
    | true => rw [cond_true, if_pos rfl, List.reverse_cons, List.append_assoc]; rfl
    | false => rw [cond_false, if_neg Bool.false_ne_true]

/-- A test that answers each member lets through those that it says yes to, in order. -/
theorem filterM_of_ok {p : α → Bool} (h : ∀ a ∈ l, test a = .ok (p a)) :
    l.filterM test = .ok (l.filter p) := by
  rw [List.filterM, filterAuxM_of_ok h, List.append_nil]
  show Except.ok (l.filter p).reverse.reverse = _
  rw [List.reverse_reverse]

end Filter

/-- **What each step keeps, a run keeps.** -/
theorem foldlM_keeps {P : β → Prop} {step : β → α → Except ε β} {l : List α}
    (hstep : ∀ b, P b → ∀ a ∈ l, ∀ b', step b a = .ok b' → P b') {b b' : β} (hb : P b)
    (h : l.foldlM step b = .ok b') : P b' := by
  induction l generalizing b with
  | nil =>
    obtain rfl := Except.ok.inj h
    exact hb
  | cons a l ih =>
    rw [List.foldlM_cons] at h
    obtain ⟨next, hnext, h⟩ := bind_eq_ok_iff.mp h
    exact ih (fun c hc x hx => hstep c hc x (List.mem_cons_of_mem _ hx))
      (hstep b hb a List.mem_cons_self next hnext) h

end Except
end ClassLineage
