import MediaCommand.Keyed
import Mathlib.Data.List.Induction
import Mathlib.Data.List.Nodup

/-!
# Keyed lists as maps in order of arrival

What a write does to the keys and to the values they are looked up with. A list of writes made in
turn has the keys in order of their first occurrence, each with the last value written under it
(`values_ofList`).
-/

namespace MediaCommand

namespace Keyed

variable {κ β : Type} [DecidableEq κ] {entries : Keyed κ β} {key other : κ} {value : β}

theorem get?_cons (entry : κ × β) (rest : Keyed κ β) (key : κ) :
    Keyed.get? (entry :: rest) key =
      if entry.1 = key then some entry.2 else Keyed.get? rest key := by
  by_cases same : entry.1 = key
  · simp [get?, same]
  · simp [get?, same]

theorem get?_put_self : (entries.put key value).get? key = some value := by
  induction entries with
  | nil => simp [put, get?_cons]
  | cons entry rest ih =>
    by_cases same : entry.1 = key
    · simp [put, same, get?_cons]
    · simp [put, same, get?_cons, ih]

theorem get?_put_other (differ : other ≠ key) :
    (entries.put key value).get? other = entries.get? other := by
  induction entries with
  | nil => simp [put, differ.symm, get?]
  | cons entry rest ih =>
    by_cases same : entry.1 = key
    · simp [put, same, get?_cons, differ.symm]
    · simp [put, same, get?_cons, ih]

theorem keys_put : (entries.put key value).keys =
    if key ∈ entries.keys then entries.keys else entries.keys ++ [key] := by
  induction entries with
  | nil => simp [put, keys]
  | cons entry rest ih =>
    by_cases same : entry.1 = key
    · simp [put, same, keys]
    · have step : (put (entry :: rest) key value).keys = entry.1 :: (put rest key value).keys := by
        simp [put, same, keys]
      have mem : key ∈ keys (entry :: rest) ↔ key ∈ keys rest := by
        simp [keys, Ne.symm same]
      rw [step, ih]
      by_cases present : key ∈ keys rest
      · rw [if_pos present, if_pos (mem.2 present)]
        rfl
      · rw [if_neg present, if_neg (mt mem.1 present)]
        rfl

/-- A new key comes last. -/
theorem put_of_notMem (new : key ∉ entries.keys) :
    entries.put key value = entries ++ [(key, value)] := by
  induction entries with
  | nil => rfl
  | cons entry rest ih =>
    have other : entry.1 ≠ key := by
      rintro rfl
      exact new List.mem_cons_self
    have later : key ∉ keys rest := fun mem => new (List.mem_cons_of_mem _ mem)
    rw [put, if_neg other, ih later, List.cons_append]

theorem nodup_keys_put (distinct : entries.keys.Nodup) : (entries.put key value).keys.Nodup := by
  rw [keys_put]
  split
  · exact distinct
  · next absent => exact List.nodup_append_comm.1 (List.nodup_cons.2 ⟨absent, distinct⟩)

/-- With one entry for each key, the values are those that the keys are looked up with. -/
theorem values_eq (distinct : entries.keys.Nodup) :
    entries.map (·.2) = entries.keys.filterMap entries.get? := by
  induction entries with
  | nil => rfl
  | cons entry rest ih =>
    obtain ⟨fresh, distinct⟩ := List.nodup_cons.1 distinct
    have restSame : (keys rest).filterMap (Keyed.get? (entry :: rest)) =
        (keys rest).filterMap (Keyed.get? rest) := by
      refine List.filterMap_congr fun k mem => ?_
      have differ : entry.1 ≠ k := by
        rintro rfl
        exact fresh mem
      rw [get?_cons, if_neg differ]
    rw [List.map_cons, ih distinct, ← restSame]
    simp [keys, get?_cons]

/-! ## Lists of writes -/

/-- The keys of a list of writes, in order of their first occurrence. -/
def firstKeys (writes : List (κ × β)) : List κ := (writes.map (·.1)).eraseDups

/-- The last value of each key, in order of the keys' first occurrence. -/
def lastValues (writes : List (κ × β)) : List β :=
  (firstKeys writes).filterMap (Keyed.get? writes.reverse)

theorem ofList_concat (writes : List (κ × β)) (key : κ) (value : β) :
    ofList (writes ++ [(key, value)]) = (ofList writes).put key value := by
  simp [ofList, List.foldl_append]

theorem keys_ofList (writes : List (κ × β)) :
    (ofList writes).keys = firstKeys writes := by
  induction writes using List.reverseRecOn with
  | nil => rfl
  | append_singleton writes write ih =>
    rw [ofList_concat, keys_put, ih, firstKeys, firstKeys, List.map_append, List.eraseDups_append,
      List.map_singleton, List.cons_removeAll]
    by_cases present : write.1 ∈ writes.map (·.1)
    · simp [present, List.removeAll, -List.mem_map]
    · simp [present, List.removeAll, List.eraseDups_cons, -List.mem_map]

theorem get?_ofList (writes : List (κ × β)) (key : κ) :
    (ofList writes).get? key = Keyed.get? writes.reverse key := by
  induction writes using List.reverseRecOn with
  | nil => rfl
  | append_singleton writes write ih =>
    rw [ofList_concat, List.reverse_concat', get?_cons]
    split
    · next same => rw [← same, get?_put_self]
    · next differ => rw [get?_put_other (Ne.symm differ), ih]

theorem nodup_keys_ofList (writes : List (κ × β)) : (ofList writes).keys.Nodup := by
  induction writes using List.reverseRecOn with
  | nil => exact .nil
  | append_singleton writes write ih =>
    rw [ofList_concat]
    exact nodup_keys_put ih

/-- Writes made in turn leave the last value of each key. -/
theorem values_ofList (writes : List (κ × β)) :
    (ofList writes).map (·.2) = lastValues writes := by
  rw [values_eq (nodup_keys_ofList writes), keys_ofList]
  exact List.filterMap_congr fun key _ => get?_ofList writes key

theorem length_lastValues (writes : List (κ × β)) :
    (lastValues writes).length = (firstKeys writes).length := by
  rw [← values_ofList, ← keys_ofList, keys, List.length_map, List.length_map]

end Keyed

end MediaCommand
