import Mathlib.Data.List.Induction
import Mathlib.Data.List.Nodup

/-!
# Tables that are changed in place

A table is a list of entries that are known by a key. Properties by name, annotations by
kind and attributes by name are kept in such tables, and all of them are filled in the same
manner: what is said about a key changes its entry where it stands, and only a key without
an entry gets one, behind the others.

Two facts about one change carry everything that is said about many of them:

* the keys stay as they are, and a new one comes last (`keys_changeEntry`), so that after
  many changes they stand in the order in which they were first mentioned: they are what was
  mentioned, with the first of each kept (`List.eraseDups`);
* the changed key is found with its new entry, every other one as before
  (`find?_changeEntry`), so that a key is found as it was left by the last change to it.
-/

namespace BeanBinding

variable {α κ : Type} [DecidableEq κ]

/-! ## One change -/

/-- A table with the entry of a key changed, or made behind the others if there is none. -/
def changeEntry (key : α → κ) (k : κ) (change : Option α → α) : List α → List α
  | [] => [change none]
  | a :: table =>
    if key a = k then change (some a) :: table else a :: changeEntry key k change table

variable {key : α → κ} {k : κ} {change : Option α → α}

/-- A change leaves the keys in their order; only a new one is added, at the end. -/
theorem keys_changeEntry (hkey : ∀ entry, key (change entry) = k) (table : List α) :
    (changeEntry key k change table).map key =
      if k ∈ table.map key then table.map key else table.map key ++ [k] := by
  induction table with
  | nil => simp [changeEntry, hkey]
  | cons a table ih =>
    rw [changeEntry]
    by_cases ha : key a = k
    · simp [ha, hkey]
    · have hk : ¬ k = key a := fun h => ha h.symm
      rw [if_neg ha, List.map_cons, ih]
      simp only [List.map_cons, List.mem_cons, hk, false_or]
      split
      · rfl
      · rfl

/-- Keys that are added unless they are there are never repeated. -/
theorem nodup_added {keys : List κ} (h : keys.Nodup) :
    (if k ∈ keys then keys else keys ++ [k]).Nodup := by
  split
  · exact h
  · rename_i hk
    rw [← List.concat_eq_append]
    exact h.concat hk

theorem nodup_changeEntry (hkey : ∀ entry, key (change entry) = k) {table : List α}
    (h : (table.map key).Nodup) : ((changeEntry key k change table).map key).Nodup := by
  rw [keys_changeEntry hkey]
  exact nodup_added h

/-- A change concerns the entry of its own key and no other. -/
theorem find?_changeEntry (hkey : ∀ entry, key (change entry) = k) (table : List α) (k' : κ) :
    (changeEntry key k change table).find? (fun a => key a = k') =
      if k' = k then some (change (table.find? fun a => key a = k))
      else table.find? fun a => key a = k' := by
  induction table with
  | nil =>
    rw [changeEntry, List.find?_singleton, hkey]
    simp [eq_comm]
  | cons a table ih =>
    rw [changeEntry]
    by_cases ha : key a = k
    · -- the entry is here, with the same key before and after
      rw [if_pos ha, List.find?_cons, List.find?_cons, List.find?_cons, hkey, ha]
      by_cases hk : k' = k
      · simp [hk]
      · have hne : ¬ k = k' := fun h => hk h.symm
        simp [hk, hne]
    · rw [if_neg ha, List.find?_cons, ih, List.find?_cons, List.find?_cons]
      by_cases hk : k' = k
      · simp [hk, ha]
      · simp [hk]

/-! ## Keys in order of first mention -/

/-- What is mentioned last is added to what is kept, unless it is there. -/
theorem eraseDups_concat (mentioned : List κ) (k : κ) :
    (mentioned ++ [k]).eraseDups =
      if k ∈ mentioned.eraseDups then mentioned.eraseDups else mentioned.eraseDups ++ [k] := by
  rw [List.eraseDups_append]
  by_cases hk : k ∈ mentioned
  · simp [List.removeAll, hk]
  · simp [List.removeAll, List.eraseDups_cons, hk]

theorem nodup_eraseDups (mentioned : List κ) : mentioned.eraseDups.Nodup := by
  induction mentioned using List.reverseRecOn with
  | nil => exact List.nodup_nil
  | append_singleton mentioned k ih =>
    rw [eraseDups_concat]
    exact nodup_added ih

/-! ## One more call -/

theorem filterMap_concat {β : Type} (f : α → Option β) (l : List α) (a : α) :
    (l ++ [a]).filterMap f = l.filterMap f ++ (f a).toList := by
  rw [List.filterMap_append, List.filterMap_cons]
  cases f a with
  | none => rfl
  | some b => rfl

end BeanBinding
