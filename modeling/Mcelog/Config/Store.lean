import Mcelog.Config.Model

/-!
# What the store of options holds

The headers and the options are allocated one after the other, so that the store can be
read as two lists: the names of the headers, and all assignments in file order, each with
the header that it belongs to. Every hash chain holds the assignments of its header and
bucket in this order.

* `Represents c names log`: the store holds these headers and assignments.
* `represents_newHeader`, `represents_addOpt`: the two ways to extend it.
* `Represents.findOption_eq`: the two loops of `config_string` find the first assignment.
-/

namespace Mcelog.Config

open Common

/-- `name = val` in a section. -/
structure Assignment where
  header : List Char
  name : List Char
  val : List Char
deriving DecidableEq

/-- An assignment in the section of the header `idx`. -/
structure Entry where
  idx : ℕ
  assigned : Assignment
deriving DecidableEq

/-- The options of the hash chain `b` of the header `i`. -/
def bucket (log : List Entry) (i : ℕ) (b : Fin shash) : List ℕ :=
  (List.range log.length).filter fun o =>
    log[o]?.any fun e => e.idx = i ∧ hash e.assigned.name = b

/-- The store holds these headers and assignments. -/
structure Represents (c : Config) (names : List (List Char)) (log : List Entry) : Prop where
  numHeaders : c.numHeaders = names.length
  numOpts : c.numOpts = log.length
  headers : IsChain (fun i => (c.headers i).next) c.hlist (List.range names.length)
  name : ∀ i < names.length, names[i]? = some (c.headers i).name
  opt : ∀ o e, log[o]? = some e →
    (c.opts o).name = e.assigned.name ∧ (c.opts o).val = e.assigned.val
  chain : ∀ i < names.length, ∀ b,
    IsChain (fun o => (c.opts o).next) ((c.headers i).opts b) (bucket log i b)
  last : ∀ i < names.length, ∀ b, (c.headers i).optslast b = (bucket log i b).getLast?
  owner : ∀ e ∈ log, names[e.idx]? = some e.assigned.header
  sorted : log.Pairwise fun e e' => e.idx ≤ e'.idx

variable {c : Config} {names : List (List Char)} {log : List Entry} {name val : List Char}
  {prevh : Option ℕ} {hdr i o : ℕ} {b : Fin shash}

/-- Nothing was read. -/
theorem represents_empty : Represents {} [] [] where
  numHeaders := rfl
  numOpts := rfl
  headers := rfl
  name _ h := absurd h (Nat.not_lt_zero _)
  opt o e h := by simp at h
  chain _ h := absurd h (Nat.not_lt_zero _)
  last _ h := absurd h (Nat.not_lt_zero _)
  owner e h := by simp at h
  sorted := .nil

/-! ## Buckets -/

theorem mem_bucket : o ∈ bucket log i b ↔
    ∃ e, log[o]? = some e ∧ e.idx = i ∧ hash e.assigned.name = b := by
  rw [bucket, List.mem_filter, List.mem_range]
  constructor
  · rintro ⟨ho, hany⟩
    rw [List.getElem?_eq_getElem ho] at hany ⊢
    exact ⟨_, rfl, of_decide_eq_true hany⟩
  · rintro ⟨e, he, hidx⟩
    rw [he]
    exact ⟨(List.getElem?_eq_some_iff.mp he).1, decide_eq_true hidx⟩

theorem lt_of_mem_bucket (h : o ∈ bucket log i b) : o < log.length :=
  List.mem_range.mp (List.mem_of_mem_filter h)

/-- An option is in one chain. -/
theorem bucket_unique {i' : ℕ} {b' : Fin shash} (h : o ∈ bucket log i b)
    (h' : o ∈ bucket log i' b') : i = i' ∧ b = b' := by
  obtain ⟨e, he, rfl, rfl⟩ := mem_bucket.mp h
  obtain ⟨e', he', rfl, rfl⟩ := mem_bucket.mp h'
  obtain rfl : e = e' := Option.some.inj (he.symm.trans he')
  exact ⟨rfl, rfl⟩

theorem nodup_bucket (log : List Entry) (i : ℕ) (b : Fin shash) : (bucket log i b).Nodup :=
  List.nodup_range.filter _

/-- An assignment goes to the end of one bucket. -/
theorem bucket_concat (log : List Entry) (e : Entry) (i : ℕ) (b : Fin shash) :
    bucket (log ++ [e]) i b =
      bucket log i b ++ if e.idx = i ∧ hash e.assigned.name = b then [log.length] else [] := by
  unfold bucket
  rw [List.length_append, List.length_singleton, List.range_succ, List.filter_append]
  congr 1
  · refine List.filter_congr fun o ho => ?_
    rw [List.getElem?_append_left (List.mem_range.mp ho)]
  · rw [List.filter_singleton]
    simp

/-- Nothing is assigned in a header that does not exist. -/
theorem Represents.bucket_eq_nil (h : Represents c names log) (hi : names.length ≤ i) :
    bucket log i b = [] := by
  rw [List.eq_nil_iff_forall_not_mem]
  intro o ho
  obtain ⟨e, he, rfl, -⟩ := mem_bucket.mp ho
  have howner := h.owner e (List.mem_of_getElem? he)
  have hlt := (List.getElem?_eq_some_iff.mp howner).1
  omega

/-! ## A new header -/

/-- The new header is linked, and only the pointer to it changes elsewhere. -/
theorem newHeader_field {β : Type*} (f : Header → β) (hf : ∀ h n, f { h with next := n } = f h)
    (c : Config) (prevh : Option ℕ) (name : List Char) (i : ℕ) :
    f ((newHeader c prevh name).1.headers i) =
      f (Function.update c.headers c.numHeaders { name } i) := by
  cases prevh with
  | none => rfl
  | some prevh =>
    dsimp only [newHeader]
    by_cases hi : i = prevh
    · subst hi
      rw [Function.update_self, hf]
    · rw [Function.update_of_ne hi]

theorem newHeader_opts : (newHeader c prevh name).1.opts = c.opts := by
  cases prevh <;> rfl

theorem newHeader_snd : (newHeader c prevh name).2 = c.numHeaders := by
  cases prevh <;> rfl

theorem newHeader_numHeaders : (newHeader c prevh name).1.numHeaders = c.numHeaders + 1 := by
  cases prevh <;> rfl

theorem newHeader_numOpts : (newHeader c prevh name).1.numOpts = c.numOpts := by
  cases prevh <;> rfl

/-- The list of headers is extended at its end. -/
theorem isChain_newHeader (h : Represents c names log)
    (hprev : prevh = (List.range names.length).getLast?) :
    IsChain (fun i => ((newHeader c prevh name).1.headers i).next)
      (newHeader c prevh name).1.hlist (List.range (names.length + 1)) := by
  have hnext : (fun i => (Function.update c.headers c.numHeaders { name } i).next) =
      Function.update (fun i => (c.headers i).next) names.length none := by
    rw [← h.numHeaders]
    exact Function.comp_update Header.next c.headers c.numHeaders _
  rw [List.range_succ]
  cases prevh with
  | none =>
    have hnil : List.range names.length = [] := List.getLast?_eq_none_iff.mp hprev.symm
    rw [hnil]
    refine ⟨congrArg some h.numHeaders, ?_⟩
    exact (congrFun hnext names.length).trans (Function.update_self ..)
  | some prevh =>
    have hlink : (fun i => ((newHeader c (some prevh) name).1.headers i).next) =
        Function.update (Function.update (fun i => (c.headers i).next) names.length none)
          prevh (some names.length) := by
      rw [← hnext, ← h.numHeaders]
      exact Function.comp_update Header.next (Function.update c.headers c.numHeaders { name })
        prevh _
    rw [hlink]
    refine IsChain.append ?_ hprev.symm (by simp) List.nodup_range (Function.update_self ..)
    refine h.headers.congr fun i hi => Function.update_of_ne ?_ _ _
    have := List.mem_range.mp hi
    omega

/-- A new header has no options. -/
theorem represents_newHeader (h : Represents c names log)
    (hprev : prevh = (List.range names.length).getLast?) (name : List Char) :
    Represents (newHeader c prevh name).1 (names ++ [name]) log where
  numHeaders := by
    rw [newHeader_numHeaders, h.numHeaders, List.length_append, List.length_singleton]
  numOpts := newHeader_numOpts.trans h.numOpts
  headers := by
    rw [List.length_append, List.length_singleton]
    exact isChain_newHeader h hprev
  name i hi := by
    rw [newHeader_field Header.name (fun _ _ => rfl), h.numHeaders]
    rcases Nat.lt_or_eq_of_le (Nat.le_of_lt_succ (by simpa using hi)) with hlt | rfl
    · rw [Function.update_of_ne hlt.ne, List.getElem?_append_left hlt, h.name i hlt]
    · rw [Function.update_self]
      simp
  opt := by
    rw [newHeader_opts]
    exact h.opt
  chain i hi b := by
    rw [newHeader_opts, newHeader_field Header.opts (fun _ _ => rfl), h.numHeaders]
    rcases Nat.lt_or_eq_of_le (Nat.le_of_lt_succ (by simpa using hi)) with hlt | rfl
    · rw [Function.update_of_ne hlt.ne]
      exact h.chain i hlt b
    · rw [Function.update_self, h.bucket_eq_nil le_rfl]
      rfl
  last i hi b := by
    rw [newHeader_field Header.optslast (fun _ _ => rfl), h.numHeaders]
    rcases Nat.lt_or_eq_of_le (Nat.le_of_lt_succ (by simpa using hi)) with hlt | rfl
    · rw [Function.update_of_ne hlt.ne]
      exact h.last i hlt b
    · rw [Function.update_self, h.bucket_eq_nil le_rfl]
      rfl
  owner e he := by
    rw [List.getElem?_append_left]
    · exact h.owner e he
    · exact (List.getElem?_eq_some_iff.mp (h.owner e he)).1
  sorted := h.sorted

/-! ## A new option -/

theorem addOpt_hlist : (addOpt c hdr name val).hlist = c.hlist := by
  unfold addOpt
  dsimp only
  split <;> rfl

theorem addOpt_numHeaders : (addOpt c hdr name val).numHeaders = c.numHeaders := by
  unfold addOpt
  dsimp only
  split <;> rfl

theorem addOpt_numOpts : (addOpt c hdr name val).numOpts = c.numOpts + 1 := by
  unfold addOpt
  dsimp only
  split <;> rfl

theorem addOpt_headers_of_ne (hi : i ≠ hdr) :
    (addOpt c hdr name val).headers i = c.headers i := by
  unfold addOpt
  dsimp only
  split <;> exact Function.update_of_ne hi _ _

/-- The names and the order of the headers stay. -/
theorem addOpt_field {β : Type*} (f : Header → β)
    (hf : ∀ h o l, f { h with opts := o, optslast := l } = f h) (c : Config) (hdr : ℕ)
    (name val : List Char) (i : ℕ) :
    f ((addOpt c hdr name val).headers i) = f (c.headers i) := by
  by_cases hi : i = hdr
  · subst hi
    unfold addOpt
    dsimp only
    split
    · exact (congrArg f (Function.update_self ..)).trans (hf ..)
    · exact (congrArg f (Function.update_self ..)).trans (hf ..)
  · rw [addOpt_headers_of_ne hi]

theorem addOpt_optslast : ((addOpt c hdr name val).headers hdr).optslast =
    Function.update (c.headers hdr).optslast (hash name) (some c.numOpts) := by
  unfold addOpt
  dsimp only
  split <;> (dsimp only; rw [Function.update_self])

/-- The first pointer of a chain changes if the chain was empty. -/
theorem addOpt_opts : ((addOpt c hdr name val).headers hdr).opts =
    if (c.headers hdr).optslast (hash name) = none then
      Function.update (c.headers hdr).opts (hash name) (some c.numOpts)
    else (c.headers hdr).opts := by
  unfold addOpt
  dsimp only
  split
  case h_1 hlast =>
    dsimp only
    rw [if_pos hlast, Function.update_self]
  case h_2 last hlast =>
    dsimp only
    rw [if_neg (by simp [hlast]), Function.update_self]

/-- The texts of the options. -/
theorem addOpt_opt_field {β : Type*} (f : Opt → β) (hf : ∀ o n, f { o with next := n } = f o)
    (c : Config) (hdr : ℕ) (name val : List Char) (o : ℕ) :
    f ((addOpt c hdr name val).opts o) =
      f (Function.update c.opts c.numOpts { name, val } o) := by
  unfold addOpt
  dsimp only
  split
  · rfl
  case h_2 last hlast =>
    dsimp only
    by_cases ho : o = last
    · subst ho
      rw [Function.update_self, hf]
    · rw [Function.update_of_ne ho]

/-- The pointers between the options while the new one is the only one of its chain. -/
def nextAlloc (c : Config) : ℕ → Option ℕ :=
  Function.update (fun o => (c.opts o).next) c.numOpts none

theorem addOpt_next_of_none (hlast : (c.headers hdr).optslast (hash name) = none) :
    (fun o => ((addOpt c hdr name val).opts o).next) = nextAlloc c := by
  unfold addOpt
  dsimp only
  rw [hlast]
  exact Function.comp_update Opt.next c.opts c.numOpts _

theorem addOpt_next_of_some {last : ℕ}
    (hlast : (c.headers hdr).optslast (hash name) = some last) :
    (fun o => ((addOpt c hdr name val).opts o).next) =
      Function.update (nextAlloc c) last (some c.numOpts) := by
  have hnext : (fun o => (Function.update c.opts c.numOpts { name, val } o).next) =
      nextAlloc c := Function.comp_update Opt.next c.opts c.numOpts _
  unfold addOpt
  dsimp only
  rw [hlast, ← hnext]
  exact Function.comp_update Opt.next (Function.update c.opts c.numOpts { name, val }) last _

/-- The chains that exist are not touched by the allocation. -/
theorem Represents.chain_alloc (h : Represents c names log) (hi : i < names.length)
    (b : Fin shash) : IsChain (nextAlloc c) ((c.headers i).opts b) (bucket log i b) := by
  refine (h.chain i hi b).congr fun o ho => Function.update_of_ne ?_ _ _
  have := lt_of_mem_bucket ho
  have := h.numOpts
  omega

/-- The chain of the new option. -/
theorem isChain_addOpt_self (h : Represents c names log) (hhdr : hdr < names.length) :
    IsChain (fun o => ((addOpt c hdr name val).opts o).next)
      (((addOpt c hdr name val).headers hdr).opts (hash name))
      (bucket log hdr (hash name) ++ [log.length]) := by
  have hchain := h.chain_alloc hhdr (hash name)
  have hlast := h.last hdr hhdr (hash name)
  have hnew : nextAlloc c log.length = none := by
    rw [← h.numOpts]
    exact Function.update_self ..
  rw [addOpt_opts]
  cases hopt : (c.headers hdr).optslast (hash name) with
  | none =>
    have hnil : bucket log hdr (hash name) = [] :=
      List.getLast?_eq_none_iff.mp (hlast.symm.trans hopt)
    rw [addOpt_next_of_none hopt, if_pos rfl, Function.update_self, hnil, h.numOpts]
    exact isChain_singleton hnew
  | some last =>
    rw [addOpt_next_of_some hopt, if_neg (by simp), h.numOpts]
    exact hchain.append (hlast.symm.trans hopt)
      (fun hmem => Nat.lt_irrefl _ (lt_of_mem_bucket hmem)) (nodup_bucket ..) hnew

/-- The other chains. -/
theorem isChain_addOpt_of_ne (h : Represents c names log) (hhdr : hdr < names.length)
    (hi : i < names.length) (hne : ¬(hdr = i ∧ hash name = b)) :
    IsChain (fun o => ((addOpt c hdr name val).opts o).next)
      (((addOpt c hdr name val).headers i).opts b) (bucket log i b) := by
  have hopts : ((addOpt c hdr name val).headers i).opts b = (c.headers i).opts b := by
    by_cases hdi : i = hdr
    · subst hdi
      have hb : b ≠ hash name := fun heq => hne ⟨rfl, heq.symm⟩
      rw [addOpt_opts]
      split_ifs
      · exact Function.update_of_ne hb _ _
      · rfl
    · rw [addOpt_headers_of_ne hdi]
  rw [hopts]
  have hchain := h.chain_alloc hi b
  have hlast := h.last hdr hhdr (hash name)
  cases hopt : (c.headers hdr).optslast (hash name) with
  | none =>
    rw [addOpt_next_of_none hopt]
    exact hchain
  | some last =>
    rw [addOpt_next_of_some hopt]
    -- The pointer that is written belongs to the last option of another chain.
    refine hchain.congr fun o ho => Function.update_of_ne ?_ _ _
    rintro rfl
    have hmem := List.mem_of_getLast? (hlast.symm.trans hopt)
    exact hne (bucket_unique hmem ho)

/-- The last options. -/
theorem addOpt_optslast_eq (h : Represents c names log) (hi : i < names.length)
    (header : List Char) (b : Fin shash) :
    ((addOpt c hdr name val).headers i).optslast b =
      (bucket (log ++ [{ idx := hdr, assigned := { header, name, val } }]) i b).getLast? := by
  rw [bucket_concat]
  by_cases hdi : i = hdr
  · subst hdi
    rw [addOpt_optslast]
    by_cases hb : b = hash name
    · subst hb
      rw [if_pos ⟨rfl, rfl⟩, Function.update_self, List.getLast?_concat, h.numOpts]
    · rw [if_neg fun hand => hb hand.2.symm, Function.update_of_ne hb, List.append_nil]
      exact h.last i hi b
  · rw [if_neg fun hand => hdi hand.1.symm, addOpt_headers_of_ne hdi, List.append_nil]
    exact h.last i hi b

/-- A new option goes to the last header. -/
theorem represents_addOpt {header : List Char} (h : Represents c names log)
    (hlast : hdr + 1 = names.length) (hname : names[hdr]? = some header)
    (name val : List Char) :
    Represents (addOpt c hdr name val) names
      (log ++ [{ idx := hdr, assigned := { header, name, val } }]) where
  numHeaders := addOpt_numHeaders.trans h.numHeaders
  numOpts := by
    rw [addOpt_numOpts, h.numOpts, List.length_append, List.length_singleton]
  headers := by
    rw [addOpt_hlist]
    exact h.headers.congr fun i _ => addOpt_field Header.next (fun _ _ _ => rfl) ..
  name i hi := by
    rw [addOpt_field Header.name fun _ _ _ => rfl]
    exact h.name i hi
  opt o e he := by
    rw [addOpt_opt_field Opt.name (fun _ _ => rfl), addOpt_opt_field Opt.val (fun _ _ => rfl),
      h.numOpts]
    rcases lt_trichotomy o log.length with hlt | rfl | hgt
    · rw [List.getElem?_append_left hlt] at he
      rw [Function.update_of_ne hlt.ne]
      exact h.opt o e he
    · rw [List.getElem?_concat_length] at he
      rw [Function.update_self, ← Option.some.inj he]
      exact ⟨rfl, rfl⟩
    · rw [List.getElem?_eq_none (by simpa using hgt)] at he
      cases he
  chain i hi b := by
    rw [bucket_concat]
    split_ifs with hself
    · obtain ⟨rfl, rfl⟩ := hself
      exact isChain_addOpt_self h hi
    · rw [List.append_nil]
      exact isChain_addOpt_of_ne h (by omega) hi hself
  last i hi b := addOpt_optslast_eq h hi header b
  owner e he := by
    rcases List.mem_append.mp he with he | he
    · exact h.owner e he
    · rw [List.mem_singleton.mp he]
      exact hname
  sorted := by
    rw [List.pairwise_append]
    refine ⟨h.sorted, List.pairwise_singleton _ _, fun e he e' he' => ?_⟩
    rw [List.mem_singleton.mp he']
    have hlt := (List.getElem?_eq_some_iff.mp (h.owner e he)).1
    show e.idx ≤ hdr
    omega

/-! ## Looking up an option -/

/-- The value that an assignment gives to `name` in the sections called `header`. -/
def Assignment.valueFor (header name : List Char) (a : Assignment) : Option (List Char) :=
  if a.header = header ∧ a.name = name then some a.val else none

/-- The inner loop finds the first assignment to `name` in one section. -/
theorem Represents.find_opts (h : Represents c names log) (hi : i < names.length)
    (name : List Char) :
    findChain (fun o => (c.opts o).next)
        (fun o => if (c.opts o).name = name then some (c.opts o).val else none)
        c.numOpts ((c.headers i).opts (hash name)) =
      log.findSome? fun e =>
        if e.idx = i then (if e.assigned.name = name then some e.assigned.val else none)
        else none := by
  have hlen : (bucket log i (hash name)).length ≤ c.numOpts := by
    rw [h.numOpts]
    exact (List.length_filter_le _ _).trans (List.length_range ..).le
  rw [(h.chain i hi (hash name)).findChain_eq hlen, bucket, findSome?_filter,
    ← findSome?_range _ log]
  refine findSome?_congr fun o ho => ?_
  obtain ⟨e, he⟩ : ∃ e, log[o]? = some e := ⟨_, List.getElem?_eq_getElem (List.mem_range.mp ho)⟩
  obtain ⟨hoptName, hoptVal⟩ := h.opt o e he
  rw [he, hoptName, hoptVal, Option.any_some, Option.bind_some]
  -- The hash of the name is no further condition.
  by_cases hname : e.assigned.name = name
  · simp [hname]
  · simp [hname]

/-- **Lookup.** The two loops find the first assignment to `name` in a section called
    `header`. -/
theorem Represents.findOption_eq (h : Represents c names log) (header name : List Char) :
    findOption c header name = log.findSome? fun e => e.assigned.valueFor header name := by
  have hkey : ∀ e ∈ log, e.idx < names.length := fun e he =>
    (List.getElem?_eq_some_iff.mp (h.owner e he)).1
  unfold findOption
  dsimp only
  rw [h.headers.findChain_eq (by rw [List.length_range, h.numHeaders]),
    ← findSome?_keys _ h.sorted hkey]
  refine findSome?_congr fun i hi => ?_
  have hi := List.mem_range.mp hi
  rw [h.find_opts hi name]
  -- The header of an assignment is the one that is looked at.
  have hheader : ∀ e ∈ log, e.idx = i → e.assigned.header = (c.headers i).name := by
    rintro e he rfl
    exact Option.some.inj ((h.owner e he).symm.trans (h.name _ hi))
  split_ifs with hsame
  · refine findSome?_congr fun e he => ?_
    by_cases hidx : e.idx = i
    · simp [hidx, Assignment.valueFor, hheader e he hidx, hsame]
    · rw [if_neg hidx, if_neg hidx]
  · symm
    rw [List.findSome?_eq_none_iff]
    intro e he
    split_ifs with hidx
    · rw [Assignment.valueFor, hheader e he hidx, if_neg fun hand => hsame hand.1]
    · rfl

end Mcelog.Config
