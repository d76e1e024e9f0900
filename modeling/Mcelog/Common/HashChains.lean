import Mathlib.Data.List.Nodup
import Mathlib.Data.List.FinRange
import Mathlib.Tactic

/-!
# Hash tables with chains

A table of `n` chains. An element stands in the chain that its key hashes to, and a new one
is put in front of it.

* `chained_push`: a new element is added to all elements.
* `Hashed`: the elements stand in their chains, and have different keys;
  `Hashed.push`, `Hashed.congr`: a new key, and new elements under their keys, keep this.
* `Hashed.find?_eq_some`: the search in one chain finds the element of a key.
-/

namespace Mcelog.Common

section

variable {n : ℕ} {κ β : Type*}

/-- All elements, chain after chain. -/
def chained (t : Fin n → List β) : List β := (List.finRange n).flatMap t

/-- Put an element in front of a chain. -/
def push (t : Fin n → List β) (i : Fin n) (b : β) : Fin n → List β :=
  Function.update t i (b :: t i)

/-- Each element stands in the chain of its key, and no two have the same key. -/
structure Hashed (key : β → κ) (hash : κ → Fin n) (t : Fin n → List β) : Prop where
  chain : ∀ i, ∀ b ∈ t i, hash (key b) = i
  nodup : ((chained t).map key).Nodup

theorem mem_chained {t : Fin n → List β} {b : β} : b ∈ chained t ↔ ∃ i, b ∈ t i := by
  rw [chained, List.mem_flatMap]
  exact ⟨fun ⟨i, _, hb⟩ => ⟨i, hb⟩, fun ⟨i, hb⟩ => ⟨i, List.mem_finRange i, hb⟩⟩

/-- Of a list of chains without repetition, one gets longer. -/
theorem flatMap_push {t : Fin n → List β} {i : Fin n} {l : List (Fin n)} (b : β)
    (hnodup : l.Nodup) (hi : i ∈ l) : (l.flatMap (push t i b)).Perm (b :: l.flatMap t) := by
  induction l with
  | nil => exact absurd hi List.not_mem_nil
  | cons j l ih =>
    obtain ⟨hj, hrest⟩ := List.nodup_cons.mp hnodup
    rw [List.flatMap_cons, List.flatMap_cons]
    by_cases hij : i = j
    · subst hij
      have hsame : l.flatMap (push t i b) = l.flatMap t := by
        refine List.flatMap_congr fun k hk => Function.update_of_ne ?_ _ _
        rintro rfl
        exact hj hk
      rw [hsame, push, Function.update_self, List.cons_append]
    · have hmem : i ∈ l := (List.mem_cons.mp hi).resolve_left hij
      have hsame : push t i b j = t j := Function.update_of_ne (Ne.symm hij) _ _
      rw [hsame]
      exact ((ih hrest hmem).append_left (t j)).trans List.perm_middle

/-- A new element is added to all elements. -/
theorem chained_push (t : Fin n → List β) (i : Fin n) (b : β) :
    (chained (push t i b)).Perm (b :: chained t) :=
  flatMap_push b (List.nodup_finRange n) (List.mem_finRange i)

theorem hashed_nil (key : β → κ) (hash : κ → Fin n) : Hashed key hash fun _ => [] := by
  refine ⟨fun i b hb => absurd hb List.not_mem_nil, ?_⟩
  have hnil : chained (fun _ : Fin n => ([] : List β)) = [] :=
    List.flatMap_eq_nil_iff.mpr fun _ _ => rfl
  rw [hnil]
  exact List.nodup_nil

variable {key : β → κ} {hash : κ → Fin n} {t : Fin n → List β} {b : β} {k : κ}

/-- A new key keeps the table a table. -/
theorem Hashed.push (h : Hashed key hash t) (hnew : key b ∉ (chained t).map key) :
    Hashed key hash (push t (hash (key b)) b) := by
  refine ⟨fun i c hc => ?_, ?_⟩
  · rw [Common.push] at hc
    by_cases hi : i = hash (key b)
    · subst hi
      rw [Function.update_self] at hc
      rcases List.mem_cons.mp hc with rfl | hc
      · rfl
      · exact h.chain _ c hc
    · rw [Function.update_of_ne hi] at hc
      exact h.chain i c hc
  · rw [((chained_push t _ b).map key).nodup_iff, List.map_cons]
    exact List.nodup_cons.mpr ⟨hnew, h.nodup⟩

/-- Elements that are changed under their keys. -/
theorem map_chained_congr {t' : Fin n → List β} (h : ∀ i, (t' i).map key = (t i).map key) :
    (chained t').map key = (chained t).map key := by
  rw [chained, chained, List.map_flatMap, List.map_flatMap]
  exact List.flatMap_congr fun i _ => h i

theorem Hashed.congr {t' : Fin n → List β} (h : Hashed key hash t)
    (hkeys : ∀ i, (t' i).map key = (t i).map key) : Hashed key hash t' := by
  refine ⟨fun i b hb => ?_, ?_⟩
  · have hmem : key b ∈ (t i).map key := by
      rw [← hkeys i]
      exact List.mem_map_of_mem hb
    obtain ⟨b', hb', hkey⟩ := List.mem_map.mp hmem
    rw [← hkey]
    exact h.chain i b' hb'
  · rw [map_chained_congr hkeys]
    exact h.nodup

/-- The search in the chain of a key finds its element. -/
theorem Hashed.find?_eq_some [DecidableEq κ] (h : Hashed key hash t) :
    ((t (hash k)).find? fun b => key b = k) = some b ↔ b ∈ chained t ∧ key b = k := by
  constructor
  · intro hfind
    exact ⟨mem_chained.mpr ⟨_, List.mem_of_find?_eq_some hfind⟩,
      by simpa using List.find?_some hfind⟩
  · rintro ⟨hb, rfl⟩
    obtain ⟨i, hi⟩ := mem_chained.mp hb
    rw [← h.chain i b hi] at hi
    obtain ⟨c, hc⟩ : ∃ c, ((t (hash (key b))).find? fun c => key c = key b) = some c :=
      Option.isSome_iff_exists.mp (List.find?_isSome.mpr ⟨b, hi, decide_eq_true rfl⟩)
    have hkey : key c = key b := by simpa using List.find?_some hc
    have hmem : c ∈ chained t := mem_chained.mpr ⟨_, List.mem_of_find?_eq_some hc⟩
    rw [hc, List.inj_on_of_nodup_map h.nodup hmem hb hkey]

/-- It finds none for a key that is not there. -/
theorem Hashed.find?_eq_none [DecidableEq κ] (h : Hashed key hash t) :
    ((t (hash k)).find? fun b => key b = k) = none ↔ k ∉ (chained t).map key := by
  constructor
  · intro hnone hk
    obtain ⟨b, hb, hkey⟩ := List.mem_map.mp hk
    rw [h.find?_eq_some.mpr ⟨hb, hkey⟩] at hnone
    cases hnone
  · intro hk
    cases hfind : (t (hash k)).find? fun b => key b = k with
    | none => rfl
    | some b =>
      obtain ⟨hb, hkey⟩ := h.find?_eq_some.mp hfind
      exact absurd (List.mem_map.mpr ⟨b, hb, hkey⟩) hk

end

end Mcelog.Common
