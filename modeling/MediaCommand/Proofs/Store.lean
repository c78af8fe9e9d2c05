import MediaCommand.Store

/-!
# Lemmas about stores

What a store holds after an object is added or replaced.
-/

namespace MediaCommand

namespace Store

variable {κ : ObjectKind} {α : Type}

/-- Nothing is known by the next reference yet. -/
theorem get?_next (store : Store κ α) : store.get? store.next = none := by
  simp [get?, next]

theorem put_add_next (store : Store κ α) (first second : α) :
    (store.add first).put store.next second = store.add second := by
  simp [add, put, next]

theorem isSome_put {store : Store κ α} {ref other : Ref κ} {object : α}
    (present : (store.get? other).isSome) : ((store.put ref object).get? other).isSome := by
  by_cases here : other = ref
  · subst here
    obtain ⟨old, found⟩ := Option.isSome_iff_exists.1 present
    rw [get?_put_self found]
    rfl
  · rwa [get?_put_other here]

/-- Changing objects one by one makes no new ones. -/
theorem next_eq_of_map {before after : Store κ α} {change : Ref κ → α → α}
    (changed : ∀ ref, after.get? ref = (before.get? ref).map (change ref)) :
    after.next = before.next := by
  have same (i : Nat) : after.cells.length ≤ i ↔ before.cells.length ≤ i := by
    have at_i := changed ⟨i⟩
    simp only [get?] at at_i
    rw [← List.getElem?_eq_none_iff, ← List.getElem?_eq_none_iff, at_i, Option.map_eq_none_iff]
  have le := (same before.cells.length).2 (Nat.le_refl _)
  have ge := (same after.cells.length).1 (Nat.le_refl _)
  rw [next, next, Nat.le_antisymm le ge]

end Store

end MediaCommand
