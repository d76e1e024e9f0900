import Mathlib.Data.List.Basic

/-!
# Walks from record to record

A loop that starts at the first of some records, checks each one and goes on to the one
behind it, at most `n` times and until a check fails. Checking a record and working on it may
go wrong, which ends everything: `check e` is `none` where the check itself goes wrong,
`some none` where it fails, and `some (some e')` where the loop goes on at `e'`.

* `reached`, `passed`: the records that are checked, and those that pass.
* `walk_eq_foldlM`: where no check goes wrong, the loop is a fold over the passed records.
* `check_of_walk`, `body_of_walk`: what a walk that did not go wrong says of its records.
* `reached_pairwise`: successors further on make the reached records ascend.
* `foldlM_filter`: a fold that collects some of the records; `foldlM_perm`: one that does not
  depend on their order.
* `mapM_eq_filterMap`, `mapM_isSome`: reading every one of some records.
-/

namespace Mcelog.Common

section

variable {ι σ : Type*} {succ : ι → Option ι} {check : ι → Option (Option ι)}
  {body : σ → ι → Option σ} {n : ℕ} {e e' : ι} {s s' : σ}

/-! ## The records -/

/-- The records that are checked. -/
def reached (succ : ι → Option ι) : ℕ → ι → List ι
  | 0, _ => []
  | n + 1, e => e :: ((succ e).map (reached succ n)).getD []

/-- The records that pass. -/
def passed (succ : ι → Option ι) (n : ℕ) (e : ι) : List ι :=
  (reached succ n e).filter fun e => (succ e).isSome

theorem reached_succ_of_some (h : succ e = some e') :
    reached succ (n + 1) e = e :: reached succ n e' := by
  rw [reached, h]
  rfl

theorem reached_succ_of_none (h : succ e = none) : reached succ (n + 1) e = [e] := by
  rw [reached, h]
  rfl

theorem passed_succ_of_some (h : succ e = some e') :
    passed succ (n + 1) e = e :: passed succ n e' := by
  rw [passed, reached_succ_of_some h, List.filter_cons_of_pos (by simp [h]), passed]

theorem passed_succ_of_none (h : succ e = none) : passed succ (n + 1) e = [] := by
  rw [passed, reached_succ_of_none h, List.filter_cons_of_neg (by simp [h]), List.filter_nil]

/-- Only the steps from the reached records matter. -/
theorem reached_congr {succ' : ι → Option ι} (h : ∀ x ∈ reached succ n e, succ' x = succ x) :
    reached succ' n e = reached succ n e := by
  induction n generalizing e with
  | zero => rfl
  | succ n ih =>
    have hhead : succ' e = succ e := h e (by rw [reached]; exact List.mem_cons_self)
    cases hsucc : succ e with
    | none => rw [reached_succ_of_none hsucc, reached_succ_of_none (hhead.trans hsucc)]
    | some e' =>
      rw [reached_succ_of_some hsucc] at h
      rw [reached_succ_of_some hsucc, reached_succ_of_some (hhead.trans hsucc),
        ih fun x hx => h x (List.mem_cons_of_mem _ hx)]

theorem passed_congr {succ' : ι → Option ι} (h : ∀ x ∈ reached succ n e, succ' x = succ x) :
    passed succ' n e = passed succ n e := by
  rw [passed, passed, reached_congr h]
  exact List.filter_congr fun x hx => by rw [h x hx]

theorem mem_passed {x : ι} :
    x ∈ passed succ n e ↔ x ∈ reached succ n e ∧ (succ x).isSome = true :=
  List.mem_filter

/-- Steps that go up make the reached records ascend. -/
theorem reached_pairwise {r : ι → ι → Prop} (hr : ∀ {a b c}, r a b → r b c → r a c)
    (hup : ∀ e e', succ e = some e' → r e e') (n : ℕ) (e : ι) :
    (reached succ n e).Pairwise r ∧ ∀ x ∈ reached succ n e, x = e ∨ r e x := by
  induction n generalizing e with
  | zero => exact ⟨List.Pairwise.nil, fun x hx => absurd hx List.not_mem_nil⟩
  | succ n ih =>
    cases hsucc : succ e with
    | none =>
      rw [reached_succ_of_none hsucc]
      exact ⟨List.pairwise_singleton _ _, fun x hx => Or.inl (List.mem_singleton.mp hx)⟩
    | some e' =>
      rw [reached_succ_of_some hsucc]
      obtain ⟨hpair, hfrom⟩ := ih e'
      have hstep : ∀ x ∈ reached succ n e', r e x := by
        intro x hx
        rcases hfrom x hx with rfl | hx'
        · exact hup e x hsucc
        · exact hr (hup e e' hsucc) hx'
      refine ⟨List.pairwise_cons.mpr ⟨hstep, hpair⟩, fun x hx => ?_⟩
      rcases List.mem_cons.mp hx with rfl | hx
      · exact Or.inl rfl
      · exact Or.inr (hstep x hx)

/-! ## The loop -/

/-- `for (i = 0; i < n; i++, e = next) { if (!check(e, &next)) break; body }` -/
def walk (check : ι → Option (Option ι)) (body : σ → ι → Option σ) : ℕ → ι → σ → Option σ
  | 0, _, s => some s
  | n + 1, e, s =>
    match check e with
    | none => none
    | some none => some s
    | some (some e') => (body s e).bind (walk check body n e')

theorem walk_succ_of_stop (h : check e = some none) : walk check body (n + 1) e s = some s := by
  rw [walk, h]

theorem walk_succ_of_next (h : check e = some (some e')) :
    walk check body (n + 1) e s = (body s e).bind (walk check body n e') := by
  rw [walk, h]

/-- Where no check goes wrong, the loop works on the passed records in order. -/
theorem walk_eq_foldlM (hcheck : ∀ x ∈ reached succ n e, check x = some (succ x)) :
    walk check body n e s = (passed succ n e).foldlM body s := by
  induction n generalizing e s with
  | zero => rfl
  | succ n ih =>
    cases hsucc : succ e with
    | none =>
      rw [reached_succ_of_none hsucc] at hcheck
      rw [passed_succ_of_none hsucc, walk_succ_of_stop (by rw [hcheck e (by simp), hsucc])]
      rfl
    | some e' =>
      rw [reached_succ_of_some hsucc] at hcheck
      rw [passed_succ_of_some hsucc, List.foldlM_cons,
        walk_succ_of_next (by rw [hcheck e (by simp), hsucc])]
      show (body s e).bind _ = (body s e).bind _
      congr 1
      funext s'
      exact ih fun x hx => hcheck x (List.mem_cons_of_mem _ hx)

/-- A walk that comes to its end has checked every record. -/
theorem check_of_walk (hsucc : ∀ x c, check x = some c → c = succ x)
    (h : walk check body n e s = some s') : ∀ x ∈ reached succ n e, check x = some (succ x) := by
  induction n generalizing e s with
  | zero => exact fun x hx => absurd hx List.not_mem_nil
  | succ n ih =>
    intro x hx
    cases hcheck : check e with
    | none =>
      rw [walk, hcheck] at h
      cases h
    | some c =>
      have hc := hsucc e c hcheck
      cases c with
      | none =>
        rw [reached_succ_of_none hc.symm, List.mem_singleton] at hx
        rw [hx, hcheck, hc]
      | some e' =>
        rw [walk_succ_of_next hcheck] at h
        obtain ⟨s₁, -, hwalk⟩ := Option.bind_eq_some_iff.mp h
        rw [reached_succ_of_some hc.symm] at hx
        rcases List.mem_cons.mp hx with rfl | hx
        · rw [hcheck, hc]
        · exact ih hwalk x hx

/-- A fold that comes to its end has worked on every element. -/
theorem body_of_foldlM {l : List ι} (h : l.foldlM body s = some s') :
    ∀ x ∈ l, ∃ s₁, (body s₁ x).isSome = true := by
  induction l generalizing s with
  | nil => exact fun x hx => absurd hx List.not_mem_nil
  | cons y l ih =>
    rw [List.foldlM_cons] at h
    obtain ⟨s₁, hbody, hrest⟩ := Option.bind_eq_some_iff.mp h
    intro x hx
    rcases List.mem_cons.mp hx with rfl | hx
    · exact ⟨s, by rw [hbody]; rfl⟩
    · exact ih hrest x hx

/-- Work that never goes wrong does not end the fold. -/
theorem foldlM_isSome {l : List ι} (h : ∀ x ∈ l, ∀ s, (body s x).isSome = true) (s : σ) :
    (l.foldlM body s).isSome = true := by
  induction l generalizing s with
  | nil => rfl
  | cons y l ih =>
    obtain ⟨s₁, hbody⟩ := Option.isSome_iff_exists.mp (h y List.mem_cons_self s)
    rw [List.foldlM_cons, hbody]
    exact ih (fun x hx => h x (List.mem_cons_of_mem _ hx)) s₁

/-- A fold comes to its end when the work goes well in every state that it comes to. -/
theorem foldlM_isSome_iff {l : List ι} {s : σ} : (l.foldlM body s).isSome = true ↔
    ∀ before x after, l = before ++ x :: after → ∀ s', before.foldlM body s = some s' →
      (body s' x).isSome = true := by
  constructor
  · rintro h before x after rfl s' hs'
    rw [List.foldlM_append, hs'] at h
    change ((x :: after).foldlM body s').isSome = true at h
    rw [List.foldlM_cons] at h
    obtain ⟨r, hr⟩ := Option.isSome_iff_exists.mp h
    obtain ⟨s₁, hbody, -⟩ := Option.bind_eq_some_iff.mp hr
    rw [hbody]
    rfl
  · intro h
    induction l generalizing s with
    | nil => rfl
    | cons x l ih =>
      obtain ⟨s₁, hbody⟩ := Option.isSome_iff_exists.mp (h [] x l rfl s rfl)
      rw [List.foldlM_cons, hbody]
      refine ih fun before y after hl s' hs' => ?_
      refine h (x :: before) y after (by rw [hl]; rfl) s' ?_
      rw [List.foldlM_cons, hbody]
      exact hs'

/-! ## Collecting -/

/-- Work that appends some of the records to a list. -/
theorem foldlM_filter {body : List ι → ι → Option (List ι)} {q : ι → Prop} [DecidablePred q]
    {l r r' : List ι} (hbody : ∀ r e r', body r e = some r' → r' = if q e then r ++ [e] else r)
    (h : l.foldlM body r = some r') : r' = r ++ l.filter fun e => q e := by
  induction l generalizing r with
  | nil =>
    rw [List.filter_nil, List.append_nil]
    exact (Option.some.inj h).symm
  | cons e l ih =>
    rw [List.foldlM_cons] at h
    obtain ⟨r₁, hstep, hrest⟩ := Option.bind_eq_some_iff.mp h
    rw [ih hrest, hbody r e r₁ hstep]
    by_cases hq : q e
    · rw [if_pos hq, List.filter_cons_of_pos (by simpa using hq), List.append_assoc]
      rfl
    · rw [if_neg hq, List.filter_cons_of_neg (by simpa using hq)]

/-- Work whose steps can change places does not depend on their order. -/
theorem foldlM_perm {l l' : List ι} (h : l'.Perm l)
    (hcomm : ∀ x ∈ l', ∀ y ∈ l', ∀ s, (body s x).bind (body · y) = (body s y).bind (body · x))
    (s : σ) : l'.foldlM body s = l.foldlM body s := by
  have hfold : ∀ (l : List ι) (s : σ),
      l.foldlM body s = l.foldl (fun r e => r.bind (body · e)) (some s) := by
    intro l
    induction l with
    | nil => exact fun s => rfl
    | cons e l ih =>
      intro s
      rw [List.foldlM_cons, List.foldl_cons, Option.bind_some]
      cases body s e with
      | none =>
        have hnone : l.foldl (fun r e => r.bind (body · e)) none = none := by
          clear ih
          induction l with
          | nil => rfl
          | cons e l ih => exact ih
        exact hnone.symm
      | some s' => exact ih s'
  rw [hfold, hfold]
  refine h.foldl_eq' (fun x hx y hy r => ?_) _
  cases r with
  | none => rfl
  | some s => exact hcomm x hx y hy s

theorem mapM_eq_filterMap {β : Type*} {f : ι → Option β} {l : List ι} {bs : List β}
    (h : l.mapM f = some bs) : bs = l.filterMap f := by
  induction l generalizing bs with
  | nil =>
    rw [List.mapM_nil] at h
    exact (Option.some.inj h).symm
  | cons a l ih =>
    rw [List.mapM_cons] at h
    obtain ⟨b, hb, h⟩ := Option.bind_eq_some_iff.mp h
    obtain ⟨bs', hbs, h⟩ := Option.bind_eq_some_iff.mp h
    rw [List.filterMap_cons_some hb, ← ih hbs]
    exact (Option.some.inj h).symm

theorem mapM_isSome {β : Type*} {f : ι → Option β} {l : List ι}
    (h : ∀ a ∈ l, (f a).isSome = true) : (l.mapM f).isSome = true := by
  induction l with
  | nil => rfl
  | cons a l ih =>
    obtain ⟨b, hb⟩ := Option.isSome_iff_exists.mp (h a List.mem_cons_self)
    obtain ⟨bs, hbs⟩ :=
      Option.isSome_iff_exists.mp (ih fun x hx => h x (List.mem_cons_of_mem _ hx))
    rw [List.mapM_cons, hb, hbs]
    rfl

end

end Mcelog.Common
