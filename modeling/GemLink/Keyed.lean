/-!
Finite maps from texts, kept as rows of entries with different keys.
-/

namespace GemLink

/-- A finite map from texts. -/
abbrev Keyed (α : Type) := List (String × α)

namespace Keyed

variable {α : Type}

/-- The value under a key. -/
def get? (m : Keyed α) (key : String) : Option α :=
  List.lookup key m

/-- Puts a value under a key, in the place of any value that was there. -/
def insert (m : Keyed α) (key : String) (value : α) : Keyed α :=
  if (m.get? key).isSome then
    List.map (fun entry => if entry.1 == key then (key, value) else entry) m
  else m ++ [(key, value)]

/-- What has been put under a key is found there. -/
theorem get?_insert_self (m : Keyed α) (key : String) (value : α) :
    (m.insert key value).get? key = some value := by
  unfold insert
  split
  · next hsome =>
    induction m with
    | nil => cases hsome
    | cons entry rest ih =>
      obtain ⟨other, old⟩ := entry
      unfold get? at hsome ih ⊢
      by_cases hk : other = key
      · simp [hk]
      · have hne : (key == other) = false := by simpa using Ne.symm hk
        rw [List.lookup_cons, hne] at hsome
        simpa [hk, List.lookup_cons, hne] using ih hsome
  · next hnone =>
    unfold get? at hnone ⊢
    simp only [Bool.not_eq_true, Option.isSome_eq_false_iff, Option.isNone_iff_eq_none] at hnone
    simp [List.lookup_append, hnone]

/-- Takes a key out. -/
def erase (m : Keyed α) (key : String) : Keyed α :=
  List.filter (fun entry => entry.1 != key) m

/-- The entries in the order of their keys, compared character by character. -/
def sorted (m : Keyed α) : List (String × α) :=
  m.mergeSort fun a b => a.1 < b.1 || a.1 == b.1

end Keyed

end GemLink
