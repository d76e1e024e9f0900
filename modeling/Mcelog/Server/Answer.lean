import Mcelog.Server.Client

/-!
# The answers of the daemon

What `dispatch_commands` writes for the commands of the front end, line by line. All
lines of a dump are finished, and none but the last ends in `done`, whatever the DIMM
database and the pages hold.

Main results:

* `terminated_dumpMemoryErrors`, `terminated_dumpPageErrors`: the two dumps.
* `answered_iff_ne_ping`: the front end gets its answer for `dump all bios` and for
  `pages`, and never returns from `ping`: its answer `pong` does not end the loop.
-/

namespace Mcelog.Server

open Mcelog.Bucket Mcelog.Common Mcelog.Memory Mcelog.Page

/-! ## Pieces of lines -/

/-- A part of a line, without a newline and a 0. -/
structure OneLine (s : List Char) : Prop where
  noNewline : '\n' ∉ s
  noNul : '\x00' ∉ s

/-- A text that, at the end of a line, is no `done`. -/
def NotDone (s : List Char) : Prop := ∀ a, ¬ "done".toList <:+ a ++ s

/-- The end of a line, with its newline. -/
def LineEnd (s : List Char) : Prop := ∃ l, s = l ++ "\n".toList ∧ OneLine l ∧ NotDone l

theorem OneLine.append {s t : List Char} (hs : OneLine s) (ht : OneLine t) : OneLine (s ++ t) where
  noNewline h := (List.mem_append.mp h).elim hs.noNewline ht.noNewline
  noNul h := (List.mem_append.mp h).elim hs.noNul ht.noNul

theorem NotDone.append (s : List Char) {t : List Char} (ht : NotDone t) : NotDone (s ++ t) := by
  intro a
  rw [← List.append_assoc]
  exact ht (a ++ s)

theorem LineEnd.append {s t : List Char} (hs : OneLine s) (ht : LineEnd t) : LineEnd (s ++ t) := by
  obtain ⟨l, rfl, hl, hd⟩ := ht
  exact ⟨s ++ l, (List.append_assoc s l _).symm, hs.append hl, .append s hd⟩

theorem LineEnd.terminated {s : List Char} (h : LineEnd s) : Terminated '\n' Plain s := by
  obtain ⟨l, rfl, hl, hd⟩ := h
  exact .line hl.noNewline ⟨hl.noNul, hd []⟩

theorem terminated_newline : Terminated '\n' Plain "\n".toList :=
  .line List.not_mem_nil ⟨List.not_mem_nil, by decide⟩

/-- Short texts: what the whole line ends in is decided by more than them. -/
theorem notDone_of_not_suffix {s : List Char} (hlen : s.length ≤ 4)
    (h : ¬ s <:+ "done".toList) : NotDone s := fun a hdone =>
  h (List.suffix_of_suffix_length_le (List.suffix_append a s) hdone hlen)

/-- Long texts: their own last characters decide. -/
theorem notDone_of_length {s : List Char} (hlen : 4 ≤ s.length)
    (h : ¬ "done".toList <:+ s) : NotDone s := fun a hdone =>
  h (List.suffix_of_suffix_length_le hdone (List.suffix_append a s) hlen)

theorem oneLine_toDigits {b : ℕ} (hb : 1 < b) (hb' : b ≤ 16) (n : ℕ) :
    OneLine (Nat.toDigits b n) := by
  have h := isDigitOf_of_mem_toDigits hb hb' n
  have hout : ∀ c, digitValue c = 16 → c ∉ Nat.toDigits b n := fun c hc =>
    notMem_of_isDigitOf h (decide_eq_false (by omega))
  exact ⟨hout _ rfl, hout _ rfl⟩

theorem oneLine_decimal (n : ℕ) : OneLine (Nat.toDigits 10 n) :=
  oneLine_toDigits (by decide) (by decide) n

theorem oneLine_anyOr (n : Int32) : OneLine (anyOr n) := by
  unfold anyOr printInt
  split_ifs
  · exact ⟨by decide, by decide⟩
  · exact OneLine.append (s := ['-']) ⟨by decide, by decide⟩ (oneLine_decimal _)
  · exact oneLine_decimal _

/-- A number with at most three characters after it. -/
theorem notDone_decimal (n : ℕ) {t : List Char} (ht : t.length ≤ 3) :
    NotDone (Nat.toDigits 10 n ++ t) := by
  obtain hnil | ⟨init, c, hcat⟩ := (Nat.toDigits 10 n).eq_nil_or_concat'
  · exact absurd hnil Nat.toDigits_ne_nil
  · rw [hcat, List.append_assoc]
    refine .append _ (notDone_of_not_suffix (Nat.succ_le_succ ht) fun h => ?_)
    have hc := isDigitOf_decimal n c (by simp [hcat])
    have hmem : c ∈ "done".toList := h.subset List.mem_cons_self
    have hnone : ∀ c ∈ "done".toList, isDigitOf 10 c = false := by decide
    rw [hnone c hmem] at hc
    cases hc

theorem notDone_anyOr (n : Int32) : NotDone (anyOr n) := by
  have hnumber := notDone_decimal n.toInt.natAbs (t := []) (by decide)
  rw [List.append_nil] at hnumber
  unfold anyOr printInt
  split_ifs
  · exact notDone_of_not_suffix (by decide) (by decide)
  · exact .append ['-'] hnumber
  · exact hnumber

/-! ## The dumps -/

theorem bucketOutput_toList {c : BucketConf} (hc : c.capacity ≠ 0) (b : LeakyBucket) :
    (bucketOutput c b).toList =
      Nat.toDigits 10 (b.count + b.excess).toNat ++ (" in ".toList ++
        (Nat.toDigits 10 (c.agetime / (timeconv c.tunit).1).toNat ++
          (if c.tunit = '\x00' then [] else [c.tunit]))) := by
  rw [bucketOutput, if_neg hc]
  dsimp only
  simp only [String.toList_append, Nat.toString_eq_ofList_toDigits, String.toList_ofList,
    List.append_assoc]
  split_ifs
  · rfl
  · rw [Char.toString, String.toList_singleton]

/-- `%u in %u` and a time unit. -/
theorem rate_append (x y : ℕ) {t : List Char} (ht : OneLine t) (hlen : t.length ≤ 3) :
    OneLine (Nat.toDigits 10 x ++ (" in ".toList ++ (Nat.toDigits 10 y ++ t))) ∧
      NotDone (Nat.toDigits 10 x ++ (" in ".toList ++ (Nat.toDigits 10 y ++ t))) := by
  have hin : OneLine " in ".toList := ⟨by decide, by decide⟩
  refine ⟨(oneLine_decimal x).append (hin.append ((oneLine_decimal y).append ht)), ?_⟩
  exact .append _ (.append _ (notDone_decimal y hlen))

/-- The text of a bucket: the end of a line could follow, or its time unit is a newline. -/
theorem bucketOutput_cases (c : BucketConf) (b : LeakyBucket) :
    (OneLine (bucketOutput c b).toList ∧ NotDone (bucketOutput c b).toList) ∨
      LineEnd (bucketOutput c b).toList := by
  by_cases hc : c.capacity = 0
  · rw [bucketOutput, if_pos hc]
    exact .inl ⟨⟨by decide, by decide⟩, notDone_of_length (by decide) (by decide)⟩
  · rw [bucketOutput_toList hc]
    split_ifs with h0
    · exact .inl (rate_append _ _ ⟨by decide, by decide⟩ (by decide))
    · by_cases hn : c.tunit = '\n'
      · have hrate := rate_append (b.count + b.excess).toNat
          (c.agetime / (timeconv c.tunit).1).toNat (t := []) ⟨by decide, by decide⟩ (by decide)
        refine .inr ⟨_, ?_, hrate⟩
        rw [hn]
        simp
      · have hunit : OneLine [c.tunit] := ⟨by simpa using Ne.symm hn, by simpa using Ne.symm h0⟩
        exact .inl (rate_append _ _ hunit (by simp))

theorem terminated_dumpErrtype {name : String} (hname : OneLine name.toList) (e : ErrType)
    (flags : PrintFlags) (bc : BucketConf) (now : ℤ) :
    Terminated '\n' Plain (dumpErrtype name e flags bc now).2 := by
  rw [dumpErrtype]
  dsimp only
  have htab : OneLine "\t".toList := ⟨by decide, by decide⟩
  refine .append ?_ (.append ?_ ?_)
  · split_ifs
    · have hend : LineEnd ":\n".toList :=
        ⟨[':'], rfl, ⟨by decide, by decide⟩, notDone_of_not_suffix (by decide) (by decide)⟩
      exact (hend.append hname).terminated
    · exact .nil
  · split_ifs
    · have hend : LineEnd " total\n".toList :=
        ⟨" total".toList, rfl, ⟨by decide, by decide⟩, notDone_of_length (by decide) (by decide)⟩
      exact ((hend.append (oneLine_decimal _)).append htab).terminated
    · exact .nil
  · split_ifs
    · obtain ⟨ho, hd⟩ | hend := bucketOutput_cases bc (bucketAge bc e.bucket now 1)
      · exact (LineEnd.append htab ⟨_, rfl, ho, hd⟩).terminated
      · rw [← List.append_assoc]
        exact (hend.append htab).terminated.append terminated_newline
    · exact .nil

/-- The DMI strings of an entry are C strings without a newline. -/
def NamesOneLine (md : Memdimm) : Prop :=
  (∀ name ∈ md.name, OneLine name.toList) ∧ ∀ location ∈ md.location, OneLine location.toList

theorem terminated_dumpBios {md : Memdimm} (h : NamesOneLine md) :
    Terminated '\n' Plain (dumpBios md) := by
  have hquote : LineEnd ("\"".toList ++ "\n".toList) :=
    ⟨"\"".toList, rfl, ⟨by decide, by decide⟩, notDone_of_not_suffix (by decide) (by decide)⟩
  have hopen : OneLine " \"".toList := ⟨by decide, by decide⟩
  have hname : OneLine "DMI_NAME".toList := ⟨by decide, by decide⟩
  have hlocation : OneLine "DMI_LOCATION".toList := ⟨by decide, by decide⟩
  rw [dumpBios]
  cases hn : md.name with
  | none =>
    cases hl : md.location with
    | none => exact .nil
    | some location =>
      have := ((hquote.append (h.2 location hl)).append hopen).append hlocation
      simpa using this.terminated
  | some name =>
    cases hl : md.location with
    | none =>
      have := ((hquote.append (h.1 name hn)).append hopen).append hname
      simpa using this.terminated
    | some location =>
      have hend := ((hquote.append (h.2 location hl)).append hopen).append hlocation
      have hclose : OneLine "\" ".toList := ⟨by decide, by decide⟩
      have := (((hend.append hclose).append (h.1 name hn)).append hopen).append hname
      simpa using this.terminated

theorem terminated_dumpDimm (c : MemdbConf) (flags : PrintFlags) (now : ℤ) {md : Memdimm}
    (h : NamesOneLine md) : Terminated '\n' Plain (dumpDimm c flags now md).2 := by
  by_cases hd : md.isDumped flags
  · rw [dumpDimm, if_pos hd]
    dsimp only
    have hend : LineEnd (anyOr md.key.dimm ++ "\n".toList) :=
      ⟨_, rfl, oneLine_anyOr _, notDone_anyOr _⟩
    have hdimm : OneLine " DIMM ".toList := ⟨by decide, by decide⟩
    have hchannel : OneLine " CHANNEL ".toList := ⟨by decide, by decide⟩
    have hsocket : OneLine "SOCKET ".toList := ⟨by decide, by decide⟩
    have hheader := ((((hend.append hdimm).append (oneLine_anyOr md.key.channel)).append
      hchannel).append (oneLine_decimal md.key.socketid.toUInt32.toNat)).append hsocket
    refine hheader.terminated.append (.append ?_ (.append ?_ ?_))
    · split_ifs
      · exact terminated_dumpBios h
      · exact .nil
    · exact terminated_dumpErrtype ⟨by decide, by decide⟩ ..
    · exact terminated_dumpErrtype ⟨by decide, by decide⟩ ..
  · rw [dumpDimm, if_neg hd]
    exact .nil

/-- The dump of the DIMM database. -/
theorem terminated_dumpMemoryErrors (c : MemdbConf) {db : Memdb} (flags : PrintFlags) (now : ℤ)
    (h : ∀ i, ∀ md ∈ db.mdDimms i, NamesOneLine md) :
    Terminated '\n' Plain (dumpMemoryErrors c db flags now).2 := by
  have hsorted : ∀ md ∈ db.sorted, Terminated '\n' Plain (dumpDimm c flags now md).2 := by
    intro md hmd
    rw [Memdb.sorted, List.mem_mergeSort, List.mem_flatMap] at hmd
    obtain ⟨i, -, hi⟩ := hmd
    exact terminated_dumpDimm c flags now (h i md hi)
  rw [dumpMemoryErrors]
  dsimp only
  cases hs : db.sorted with
  | nil => exact .nil
  | cons md rest =>
    rw [hs] at hsorted
    have hheader : LineEnd "Memory errors\n".toList :=
      ⟨"Memory errors".toList, rfl, ⟨by decide, by decide⟩,
        notDone_of_length (by decide) (by decide)⟩
    refine hheader.terminated.append (.append (hsorted md List.mem_cons_self) (.flatMap ?_))
    intro md' hmd'
    exact terminated_newline.append (hsorted md' (List.mem_cons_of_mem md hmd'))

theorem terminated_dumpPage (c : BucketConf) (p : Mempage) :
    Terminated '\n' Plain (dumpPage c p) := by
  have hstate : LineEnd ((pageState p.offlined).toList ++
      ((if p.triggered then " triggered" else "").toList ++ "\n".toList)) := by
    refine ⟨(pageState p.offlined).toList ++ (if p.triggered then " triggered" else "").toList,
      (List.append_assoc ..).symm, ⟨?_, ?_⟩, notDone_of_length ?_ ?_⟩
    all_goals
      cases p.offlined <;> cases p.triggered <;> decide
  have hquote := hstate.append (s := "\" ".toList) ⟨by decide, by decide⟩
  have hfront : OneLine ((hexAddr p.addr).toList ++ (": total ".toList ++
      (Nat.toDigits 10 p.ce.count.toNat ++ " seen \"".toList))) := by
    rw [hexAddr, String.toList_ofList]
    refine (oneLine_toDigits (by decide) (by decide) _).append (.append ⟨by decide, by decide⟩ ?_)
    exact (oneLine_decimal _).append ⟨by decide, by decide⟩
  obtain ⟨ho, -⟩ | hend := bucketOutput_cases c p.ce.bucket
  · have := ((hquote.append ho).append hfront).terminated
    simpa [dumpPage] using this
  · have := (hend.append hfront).terminated.append hquote.terminated
    simpa [dumpPage] using this

/-- The dump of the pages. -/
theorem terminated_dumpPageErrors (c : PageConf) (s : Store) :
    Terminated '\n' Plain (dumpPageErrors c s) := by
  rw [dumpPageErrors]
  split
  · exact .nil
  · have hheader : LineEnd "Per page corrected memory statistics:\n".toList :=
      ⟨"Per page corrected memory statistics:".toList, rfl, ⟨by decide, by decide⟩,
        notDone_of_length (by decide) (by decide)⟩
    refine hheader.terminated.append (.flatMap fun sl _ => ?_)
    exact (terminated_dumpPage _ _).append terminated_newline

/-! ## The commands of the front end -/

/-- The commands that the front end sends (mcelog.c:1338-1353). -/
inductive Command
  | dumpAllBios
  | pages
  | ping
  deriving DecidableEq, Repr

/-- The argument of `ask_server`. -/
def Command.text : Command → List Char
  | .dumpAllBios => "dump all bios\n".toList
  | .pages => "pages\n".toList
  | .ping => "ping\n".toList

theorem dispatchCommands_dumpAllBios (d : Daemon) :
    (dispatchCommands d Command.dumpAllBios.text).2 =
      (dumpMemoryErrors d.memdbConf d.memdb { all := true, bios := true } d.now).2 ++
        "done\n".toList :=
  List.append_nil _

theorem dispatchCommands_pages (d : Daemon) :
    (dispatchCommands d Command.pages.text).2 = dumpPageErrors d.pageConf d.store ++
      "done\n".toList :=
  List.append_nil _

theorem dispatchCommands_ping (d : Daemon) :
    (dispatchCommands d Command.ping.text).2 = "pong\n".toList :=
  List.append_nil _

/-- The front end gets the answer to `command`: its loop returns at the last line of the
    answer and prints all lines before it, and the two parties never wait for each
    other. -/
def Answered (d : Daemon) (command : List Char) : Prop :=
  (∃ body last, (dispatchCommands d command).2 = body ++ (last ++ ['\n']) ∧
    rest '\n' body = [] ∧ '\n' ∉ last ∧
    askServer { unread := (dispatchCommands d command).2 } =
      { printed := body, returned := true }) ∧
  ∀ e, Reach ExchangeStep (.start d command) e → ¬ e.Deadlock

/-- An answer of plain lines and `done`. -/
theorem answered_of_terminated {d : Daemon} {command body : List Char}
    (h : (dispatchCommands d command).2 = body ++ "done\n".toList)
    (hbody : Terminated '\n' Plain body) : Answered d command := by
  have hask : askServer { unread := (dispatchCommands d command).2 } =
      { printed := body, returned := true } := by
    rw [h, askServer_answer hbody, List.nil_append]
  refine ⟨⟨body, "done".toList, h, hbody.2, by decide, hask⟩, fun e he => ?_⟩
  refine Exchange.not_deadlock he ?_
  rw [Exchange.complete, Exchange.start, List.nil_append, hask]

/-- After the whole answer to `ping` both parties wait. -/
theorem ping_deadlock (d : Daemon) : ∃ e, Reach ExchangeStep (.start d Command.ping.text) e ∧
    e.Deadlock ∧ e.client.printed = "pong\n".toList := by
  have hstart : Exchange.start d Command.ping.text = ⟨"pong\n".toList, {}⟩ := by
    rw [Exchange.start, dispatchCommands_ping]
  refine ⟨⟨[], { printed := "pong\n".toList }⟩, ?_, ⟨rfl, rfl, rfl⟩, rfl⟩
  rw [hstart]
  have hsend := Reach.step (.refl : Reach ExchangeStep _ _) (.send 5)
    (ExchangeStep.send (e := ⟨"pong\n".toList, {}⟩) (by decide) (by decide))
  exact hsend.step .read (.read rfl (by decide))

theorem not_answered_ping (d : Daemon) : ¬ Answered d Command.ping.text := by
  intro hanswered
  obtain ⟨e, he, hdead, -⟩ := ping_deadlock d
  exact hanswered.2 e he hdead

/-- **The front end and the daemon.** Whatever the DIMM database and the pages hold, the
    front end gets its answer to `dump all bios` and to `pages`, and to no `ping`: the
    line `pong` does not end its loop. -/
theorem answered_iff_ne_ping (d : Daemon) (h : ∀ i, ∀ md ∈ d.memdb.mdDimms i, NamesOneLine md)
    (command : Command) : Answered d command.text ↔ command ≠ .ping := by
  cases command with
  | dumpAllBios =>
    refine iff_of_true ?_ (by decide)
    exact answered_of_terminated (dispatchCommands_dumpAllBios d)
      (terminated_dumpMemoryErrors d.memdbConf _ d.now h)
  | pages =>
    refine iff_of_true ?_ (by decide)
    exact answered_of_terminated (dispatchCommands_pages d)
      (terminated_dumpPageErrors d.pageConf d.store)
  | ping => exact iff_of_false (not_answered_ping d) (by decide)

theorem idleDaemon_names : ∀ i, ∀ md ∈ idleDaemon.memdb.mdDimms i, NamesOneLine md := by
  intro i md hmd
  have h : ∀ i, ∀ md ∈ idleDaemon.memdb.mdDimms i,
      md.name = some "DIMM_A1" ∧ md.location = some "Node 0" := by decide
  obtain ⟨hname, hlocation⟩ := h i md hmd
  refine ⟨fun name hn => ?_, fun location hl => ?_⟩
  · obtain rfl := Option.some.inj (hname.symm.trans hn)
    exact ⟨by decide, by decide⟩
  · obtain rfl := Option.some.inj (hlocation.symm.trans hl)
    exact ⟨by decide, by decide⟩

/-- The idle daemon and `dump all bios`. -/
theorem idleDaemon_dump_answered : Answered idleDaemon Command.dumpAllBios.text :=
  (answered_iff_ne_ping idleDaemon idleDaemon_names .dumpAllBios).mpr (by decide)

/-- The idle daemon and `ping`: the front end has printed `pong` and waits. -/
theorem idleDaemon_ping_unanswered :
    (∀ i, ∀ md ∈ idleDaemon.memdb.mdDimms i, NamesOneLine md) ∧
    ¬ Answered idleDaemon Command.ping.text ∧
    ∃ e, Reach ExchangeStep (.start idleDaemon Command.ping.text) e ∧ e.Deadlock ∧
      e.client.printed = "pong\n".toList :=
  ⟨idleDaemon_names, not_answered_ping idleDaemon, ping_deadlock idleDaemon⟩

end Mcelog.Server
