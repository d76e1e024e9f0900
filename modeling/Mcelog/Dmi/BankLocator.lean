import Mcelog.Common.Scanf

/-!
# Bank locators

`parse_dimm_addr` tries four formats for the string that names the bank of a DIMM, each with
an `sscanf` that assigns to the variables of its caller. Two of the formats, those of AMI, have
no channel: `channel` keeps what it had before.

* `parseDimmAddr_of_amiBank`: an AMI locator leaves the channel as it was.
* `determined_iff`: the numbers of all other locators depend on nothing else.
-/

namespace Mcelog.Dmi

open Mcelog.Common

/-! ## Parsing a locator -/

/-- The variables `socketid`, `channel` and `dimm` of `prefill_memdb`, which live from one
    memory device to the next (memdb.c:410). -/
structure DimmAddr where
  socketid : UInt32
  channel : UInt32
  dimm : UInt32
  deriving DecidableEq, Repr

/-- `"_Node%u_Channel%u_Dimm%u"` -/
def nodeChannelDimm : List Directive :=
  literal "_Node" ++ [conversionU] ++ literal "_Channel" ++ [conversionU] ++ literal "_Dimm" ++
    [conversionU]

/-- `"NODE %u CHANNEL %u DIMM %u"` -/
def upperNode : List Directive :=
  literal "NODE " ++ [conversionU] ++ literal " CHANNEL " ++ [conversionU] ++ literal " DIMM " ++
    [conversionU]

/-- A format of AMI: a number behind `node`, and one behind `bank`. -/
def bankFormat (node bank : String) : List Directive :=
  literal node ++ conversionU :: (literal bank ++ [conversionU])

/-- `"Node%u_Bank%u"` -/
def nodeBank : List Directive := bankFormat "Node" "_Bank"

/-- `"A%u_BANK%u"` -/
def aBank : List Directive := bankFormat "A" "_BANK"

/-- What an `unsigned` has after `sscanf` has been given its address as argument `i`. -/
def assigned (r : ScanResult) (i : ℕ) (old : UInt32) : UInt32 :=
  ((r.num? i).map UInt32.ofNat).getD old

/-- `sscanf(.., socketid, channel, dimm)` -/
def DimmAddr.assignThree (a : DimmAddr) (r : ScanResult) : DimmAddr :=
  ⟨assigned r 0 a.socketid, assigned r 1 a.channel, assigned r 2 a.dimm⟩

/-- `sscanf(.., socketid, dimm)` -/
def DimmAddr.assignTwo (a : DimmAddr) (r : ScanResult) : DimmAddr :=
  ⟨assigned r 0 a.socketid, a.channel, assigned r 1 a.dimm⟩

/-- `parse_dimm_addr` (memdb.c:380-401): the variables afterwards, and the result. -/
def parseDimmAddr (a : DimmAddr) : Option (List Char) → DimmAddr × Bool
  | none => (a, false)
  | some bl =>
    let r := sscanf nodeChannelDimm (bl.dropWhile (· ≠ '_'))
    let a := a.assignThree r
    if r.ret = 3 then (a, true)
    else
      let r := sscanf upperNode bl
      let a := a.assignThree r
      if r.ret = 3 then (a, true)
      else
        let r := sscanf nodeBank bl
        let a := a.assignTwo r
        if r.ret = 2 then (a, true)
        else
          let r := sscanf aBank bl
          let a := a.assignTwo r
          if r.ret = 2 then (a, true) else (a, false)

/-! ## Locators of AMI -/

/-- The locator has one of the two formats without a channel. -/
def AmiBank (bl : List Char) : Prop :=
  (sscanf nodeBank bl).ret = 2 ∨ (sscanf aBank bl).ret = 2

instance (bl : List Char) : Decidable (AmiBank bl) := inferInstanceAs (Decidable (_ ∨ _))

/-- The numbers of a locator that is parsed do not depend on the variables before. -/
def Determined (bl : List Char) : Prop :=
  ∀ a a', (parseDimmAddr a (some bl)).2 = true →
    parseDimmAddr a' (some bl) = parseDimmAddr a (some bl)

section

variable {a : DimmAddr} {bl : List Char} {r : ScanResult}

/-! ## What a format matches -/

theorem literal_eq (text : String) :
    literal text = text.toList.map fun c => if isSpace c then .space else .lit c := rfl

/-- A locator of AMI, up to the text before its second number. -/
theorem split_of_bankFormat {node bank : String} (hnode : ∀ c ∈ node.toList, isSpace c = false)
    (hbank : ∀ c ∈ bank.toList, isSpace c = false)
    (h : (sscanf (bankFormat node bank) bl).ret = 2) :
    ∃ read rest, bl = node.toList ++ (read ++ (bank.toList ++ rest)) ∧
      ∀ c ∈ read, isSpace c = true ∨ c = '-' ∨ c = '+' ∨ isDigitOf 10 c = true := by
  have hargs : 2 ≤ (scan bl.length (bankFormat node bank) bl).1.length := by
    have hle := sscanf_ret_le (bankFormat node bank) bl
    omega
  obtain ⟨t, rfl, ht⟩ := scan_literal_inv hnode (fun hnil => by
    rw [bankFormat, literal_eq, hnil] at hargs
    exact absurd hargs (by decide))
  rw [bankFormat, literal_eq, ← ht] at hargs
  cases hnumber : readNumber t with
  | none =>
    obtain ⟨e, he⟩ := scan_readNumber_none hnumber (node.toList ++ t).length
      (literal bank ++ [conversionU])
    rw [he] at hargs
    exact absurd hargs (by simp)
  | some found =>
    obtain ⟨read, rfl, hread⟩ := readNumber_split hnumber
    rw [scan_readNumber hnumber, List.length_cons] at hargs
    obtain ⟨rest, hrest, -⟩ := scan_literal_inv hbank (fun hnil => by
      rw [literal_eq, hnil] at hargs
      exact absurd hargs (by decide))
    exact ⟨read, rest, by rw [← hrest], hread⟩

/-- The first underscore of such a locator is the one in front of the bank. -/
theorem dropWhile_of_bankFormat {read : List Char} (node bank rest : List Char)
    (hnode : '_' ∉ node)
    (hread : ∀ c ∈ read, isSpace c = true ∨ c = '-' ∨ c = '+' ∨ isDigitOf 10 c = true) :
    (node ++ (read ++ ('_' :: bank ++ rest))).dropWhile (· ≠ '_') = '_' :: bank ++ rest := by
  have hskip : ∀ text : List Char, '_' ∉ text → ∀ c ∈ text, decide (c ≠ '_') = true :=
    fun text htext c hc => decide_eq_true fun heq => htext (heq ▸ hc)
  have hnone : '_' ∉ read := by
    intro hmem
    rcases hread _ hmem with h | h | h | h <;> revert h <;> decide
  rw [List.dropWhile_append_of_pos (hskip node hnode),
    List.dropWhile_append_of_pos (hskip read hnone)]
  rfl

/-- An attempt that assigns nothing. -/
theorem assigned_nil {ret : ℤ} (i : ℕ) (old : UInt32) : assigned ⟨ret, []⟩ i old = old := rfl

theorem assigned_of_isSome (h : (r.num? i).isSome = true) (old old' : UInt32) :
    assigned r i old = assigned r i old' := by
  obtain ⟨n, hn⟩ := Option.isSome_iff_exists.mp h
  rw [assigned, assigned, hn]
  rfl

/-- The formats before assign nothing of a locator of the new AMI BIOS. -/
theorem attempts_of_nodeBank (h : (sscanf nodeBank bl).ret = 2) :
    sscanf nodeChannelDimm (bl.dropWhile (· ≠ '_')) = ⟨0, []⟩ ∧ sscanf upperNode bl = ⟨0, []⟩ := by
  obtain ⟨read, rest, rfl, hread⟩ := split_of_bankFormat (by decide) (by decide) h
  have hdrop := dropWhile_of_bankFormat "Node".toList "Bank".toList rest (by decide) hread
  exact ⟨congrArg (sscanf nodeChannelDimm) hdrop, rfl⟩

/-- Nor do they of a locator of the old one. -/
theorem attempts_of_aBank (h : (sscanf aBank bl).ret = 2) :
    sscanf nodeChannelDimm (bl.dropWhile (· ≠ '_')) = ⟨0, []⟩ ∧ sscanf upperNode bl = ⟨0, []⟩ ∧
      sscanf nodeBank bl = ⟨0, []⟩ := by
  obtain ⟨read, rest, rfl, hread⟩ := split_of_bankFormat (by decide) (by decide) h
  have hdrop := dropWhile_of_bankFormat "A".toList "BANK".toList rest (by decide) hread
  exact ⟨congrArg (sscanf nodeChannelDimm) hdrop, rfl, rfl⟩

/-- Two numbers that are read say what socket and DIMM are, and leave the channel. -/
theorem assignTwo_of_ret {format : List Directive} (hret : (sscanf format bl).ret = 2)
    (hnumeric : ∀ d ∈ format, d.isNumeric = true) (a : DimmAddr) :
    a.assignTwo (sscanf format bl) =
      ⟨assigned (sscanf format bl) 0 0, a.channel, assigned (sscanf format bl) 1 0⟩ := by
  rw [DimmAddr.assignTwo,
    assigned_of_isSome (sscanf_num_isSome hnumeric hret (by decide)) a.socketid 0,
    assigned_of_isSome (sscanf_num_isSome hnumeric hret (by decide)) a.dimm 0]

/-- Three numbers that are read say what all of them are. -/
theorem assignThree_of_ret {format : List Directive} (hret : (sscanf format bl).ret = 3)
    (hnumeric : ∀ d ∈ format, d.isNumeric = true) (a a' : DimmAddr) :
    a'.assignThree (sscanf format bl) = a.assignThree (sscanf format bl) := by
  have hassigned (i : ℕ) (hi : i < 3) (old old' : UInt32) :
      assigned (sscanf format bl) i old' = assigned (sscanf format bl) i old :=
    assigned_of_isSome (sscanf_num_isSome hnumeric hret hi) _ _
  rw [DimmAddr.assignThree, DimmAddr.assignThree, hassigned 0 (by decide) a.socketid,
    hassigned 1 (by decide) a.channel, hassigned 2 (by decide) a.dimm]

/-! ## Where the numbers come from -/

/-- An AMI locator is parsed, and the channel stays as it was. -/
theorem parseDimmAddr_of_amiBank (h : AmiBank bl) : ∃ socketid dimm, ∀ a,
    parseDimmAddr a (some bl) = (⟨socketid, a.channel, dimm⟩, true) := by
  have hskip (a : DimmAddr) : a.assignThree ⟨0, []⟩ = a := rfl
  by_cases hnode : (sscanf nodeBank bl).ret = 2
  · obtain ⟨hfirst, hsecond⟩ := attempts_of_nodeBank hnode
    refine ⟨assigned (sscanf nodeBank bl) 0 0, assigned (sscanf nodeBank bl) 1 0, fun a => ?_⟩
    rw [parseDimmAddr, hfirst, hsecond]
    dsimp only
    rw [if_neg (by decide), if_neg (by decide), if_pos hnode, hskip, hskip,
      assignTwo_of_ret hnode (by decide)]
  · have ha := h.resolve_left hnode
    obtain ⟨hfirst, hsecond, hthird⟩ := attempts_of_aBank ha
    refine ⟨assigned (sscanf aBank bl) 0 0, assigned (sscanf aBank bl) 1 0, fun a => ?_⟩
    have hskip' : a.assignTwo ⟨0, []⟩ = a := rfl
    rw [parseDimmAddr, hfirst, hsecond, hthird]
    dsimp only
    rw [if_neg (by decide), if_neg (by decide), if_neg (by decide), if_pos ha, hskip, hskip, hskip',
      assignTwo_of_ret ha (by decide)]

/-- A locator of another format that is parsed has all three numbers. -/
theorem determined_of_not_amiBank (h : ¬ AmiBank bl) : Determined bl := by
  obtain ⟨hnode, ha⟩ := not_or.mp h
  intro a a' hparsed
  rw [parseDimmAddr] at hparsed ⊢
  rw [parseDimmAddr]
  dsimp only at hparsed ⊢
  split_ifs at hparsed ⊢ with hfirst hsecond
  · rw [assignThree_of_ret hfirst (by decide) a a']
  · rw [assignThree_of_ret hsecond (by decide) (a.assignThree _) (a'.assignThree _)]

/-- The locators whose numbers depend on nothing else. -/
theorem determined_iff : Determined bl ↔ ¬ AmiBank bl := by
  refine ⟨fun h hami => ?_, determined_of_not_amiBank⟩
  obtain ⟨socketid, dimm, hparse⟩ := parseDimmAddr_of_amiBank hami
  have heq := h ⟨0, 0, 0⟩ ⟨0, 1, 0⟩ (by rw [hparse])
  rw [hparse, hparse, Prod.mk.injEq, DimmAddr.mk.injEq] at heq
  exact absurd heq.1.2.1 (by decide)

end

end Mcelog.Dmi
