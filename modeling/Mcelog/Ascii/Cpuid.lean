import Mcelog.Ascii.RecordLines
import Mcelog.Machine.Detect

/-!
# The line of the CPUID

`dump_mce` prints the CPUID of a record as vendor, family, model and stepping, and
`decodefatal` packs family and model into a CPUID again, which selects the decoder of the
record.

* `parseCpuid_unparseCpuid`: `unparse_cpuid` is inverse to `parse_cpuid` on the families and
  models that `parse_cpuid` returns.
* `cpuid_line_same_decoder`: the line gives the vendor, the family, the model and the decoder
  that it was printed for.
-/

namespace Mcelog.Ascii

open Mcelog.Common Mcelog.Machine

/-! ## Family and model -/

/-- The families and models that fit into the bit fields of a CPUID. -/
def FitsCpuid (family model : ℕ) : Prop :=
  if family < 6 then model < 16 else family ≤ 270 ∧ model < 256

theorem fitsCpuid_parseCpuid (cpuid : UInt32) :
    FitsCpuid (parseCpuid cpuid).1 (parseCpuid cpuid).2.1 := by
  unfold FitsCpuid parseCpuid
  dsimp only
  split_ifs <;> omega

/-- The bit fields of a CPUID without stepping. -/
def packCpuid (model family extModel extFamily : ℕ) : ℕ :=
  model * 2 ^ 4 + family * 2 ^ 8 + extModel * 2 ^ 16 + extFamily * 2 ^ 20

theorem packCpuid_fields {model family extModel extFamily : ℕ} (hmodel : model < 16)
    (hfamily : family < 16) (hextModel : extModel < 16) (hextFamily : extFamily < 256) :
    let v := packCpuid model family extModel extFamily
    v < 2 ^ 32 ∧ v % 16 = 0 ∧ v / 2 ^ 4 % 16 = model ∧ v / 2 ^ 8 % 16 = family ∧
      v / 2 ^ 16 % 16 = extModel ∧ v / 2 ^ 20 % 256 = extFamily := by
  unfold packCpuid
  dsimp only
  omega

theorem parseCpuid_unparseCpuid {family model : ℕ} (h : FitsCpuid family model) :
    parseCpuid (unparseCpuid family model) = (family, model, 0) := by
  rw [FitsCpuid] at h
  have hfamily : (if family ≥ 0xf then 0xf else family % 16) < 16 := by
    split_ifs <;> omega
  have hextFamily : (if family ≥ 0xf then (family - 0xf) % 256 else 0) < 256 := by
    split_ifs <;> omega
  have hextModel : (if family ≥ 6 then model / 16 % 16 else 0) < 16 := by
    split_ifs <;> omega
  obtain ⟨hlt, hstep, hmodel, hbase, hext, hextFam⟩ :=
    packCpuid_fields (Nat.mod_lt model (by decide)) hfamily hextModel hextFamily
  have hpacked : (unparseCpuid family model).toNat = packCpuid (model % 16)
      (if family ≥ 0xf then 0xf else family % 16) (if family ≥ 6 then model / 16 % 16 else 0)
      (if family ≥ 0xf then (family - 0xf) % 256 else 0) := by
    show (UInt32.ofNat (packCpuid _ _ _ _)).toNat = _
    rw [UInt32.toNat_ofNat']
    exact Nat.mod_eq_of_lt hlt
  unfold parseCpuid
  rw [hpacked]
  dsimp only
  rw [hstep, hmodel, hbase, hext, hextFam]
  clear hlt hstep hmodel hbase hext hextFam hpacked hfamily hextFamily hextModel
  -- below 15 the family is its base field, from 15 on the base field is 15
  have hfam : (if (if family ≥ 0xf then 0xf else family % 16) = 0xf then
      (if family ≥ 0xf then 0xf else family % 16) +
        (if family ≥ 0xf then (family - 0xf) % 256 else 0)
      else if family ≥ 0xf then 0xf else family % 16) = family := by
    split_ifs at h ⊢ <;> omega
  rw [hfam]
  refine Prod.ext rfl (Prod.ext ?_ rfl)
  dsimp only
  split_ifs at h ⊢ <;> omega

/-! ## The decoder -/

/-- `setup_cpuid` (mcelog.c:289-310): the CPU type, and `memory_error_support` afterwards. -/
def setupCpuid (memoryErrorSupport : Bool) (cpuvendor : UInt8) (cpuid : UInt32) : CpuType × Bool :=
  let (family, model, _) := parseCpuid cpuid
  if cpuvendor = 0 then selectIntelCputype memoryErrorSupport (.ofNat family) (.ofNat model)
  else if cpuvendor = 5 ∨ cpuvendor = 10 then selectZhaoxinCputype (.ofNat family) (.ofNat model)
  else if cpuvendor = 2 ∧ 15 ≤ family ∧ family ≤ 17 then (.k8, memoryErrorSupport)
  else (.generic, memoryErrorSupport)

/-- The decoder is selected by family and model. -/
theorem setupCpuid_congr {c c' : UInt32} (hfamily : (parseCpuid c).1 = (parseCpuid c').1)
    (hmodel : (parseCpuid c).2.1 = (parseCpuid c').2.1) (support : Bool) (vendor : UInt8) :
    setupCpuid support vendor c = setupCpuid support vendor c' := by
  unfold setupCpuid
  dsimp only
  rw [hfamily, hmodel]

/-! ## The line -/

/-- The vendors with decoders of their own (mcelog.h:41-48). -/
inductive Vendor
  | intel
  | amd
  | centaur
  | zhaoxin
  deriving DecidableEq, Repr

/-- `X86_VENDOR_*` -/
def Vendor.number : Vendor → UInt8
  | .intel => 0
  | .amd => 2
  | .centaur => 5
  | .zhaoxin => 10

/-- `"CPUID Vendor %s Family %u Model %u Step %u\n"` (mcelog.c:394-398) -/
def cpuidLineOf (cpuvendor : UInt8) (cpuid : UInt32) : List Char :=
  let (family, model, step) := parseCpuid cpuid
  "CPUID Vendor ".toList ++ ((cpuvendorName cpuvendor).toList ++ (" Family ".toList ++
    (Nat.toDigits 10 family ++ (" Model ".toList ++ (Nat.toDigits 10 model ++
      (" Step ".toList ++ (Nat.toDigits 10 step ++ ['\n'])))))))

/-- It is the line that `dump_mce` prints for a record with a CPUID. -/
theorem cpuidLine_eq_cpuidLineOf {m : Mce} {recordlen : ℕ} (hlen : recordlen > 60)
    (hcpuid : m.cpuid ≠ 0) : cpuidLine m recordlen = cpuidLineOf m.cpuvendor m.cpuid :=
  if_pos ⟨hlen, hcpuid⟩

/-- The place of the vendor among those whose name is one word. -/
def Vendor.word : Vendor → Fin 8
  | .intel => 0
  | .amd => 2
  | .centaur => 4
  | .zhaoxin => 7

theorem Vendor.name_eq (v : Vendor) : cpuvendorName v.number = vendorName v.word ∧
    UInt8.ofNat ((vendors.map String.toList).idxOf (vendorName v.word).toList) = v.number := by
  cases v <;> decide

/-- What `decodefatal` stores for the line. -/
theorem cpuidLineOf_takes (env : AsciiEnv) (v : Vendor) (cpuid : UInt32) :
    Takes env (cpuidLineOf v.number cpuid) true (fun x => { x with m := { x.m with
      cpuvendor := v.number
      cpuid := unparseCpuid (parseCpuid cpuid).1 (parseCpuid cpuid).2.1 } }) := by
  obtain ⟨hname, hnumber⟩ := v.name_eq
  have hfits := fitsCpuid_parseCpuid cpuid
  generalize hfam : (parseCpuid cpuid).1 = family at hfits ⊢
  generalize hmod : (parseCpuid cpuid).2.1 = model at hfits ⊢
  rw [FitsCpuid] at hfits
  have hfamily : (UInt32.ofNat family).toNat = family := by
    rw [UInt32.toNat_ofNat']
    split_ifs at hfits <;> omega
  have hmodel : (UInt32.ofNat model).toNat = model := by
    rw [UInt32.toNat_ofNat']
    split_ifs at hfits <;> omega
  have hclean : CleanLine 'g' (" Step ".toList ++
      (Nat.toDigits 10 (parseCpuid cpuid).2.2 ++ ['\n'])) :=
    .append (by decide) (.append (clean_dec (by decide) _) cleanLine_newline)
  have hblank : ∀ c ∈ (" Step ".toList ++
      (Nat.toDigits 10 (parseCpuid cpuid).2.2 ++ ['\n'])).head?, isSpace c = true := by
    intro c hc
    obtain rfl : ' ' = c := Option.some.inj hc
    rfl
  have hline : cpuidLineOf v.number cpuid = cpuidText v.word family model (" Step ".toList ++
      (Nat.toDigits 10 (parseCpuid cpuid).2.2 ++ ['\n'])) := by
    unfold cpuidLineOf cpuidText
    rw [hname, ← hfam, ← hmod]
  have htakes := cpuid_takes env v.word (.ofNat family) (.ofNat model) hblank hclean
  rw [hfamily, hmodel, ← hline] at htakes
  have hchange :
      (fun x : Values => (FieldLine.cpuid v.word (.ofNat family) (.ofNat model)).give x) =
      fun x => { x with m := { x.m with
        cpuvendor := v.number, cpuid := unparseCpuid family model } } := by
    funext x
    rw [FieldLine.give, hfamily, hmodel, hnumber]
  rwa [hchange] at htakes

/-- **The line of the CPUID.** For every CPUID and every vendor with a decoder of its own, and
    in whatever state the line is read: the record gets the same vendor and a CPUID of the
    same family and model, for which `setup_cpuid` selects the same decoder. And packing a
    family and a model that `parse_cpuid` returns, and parsing the number again, gives them
    back. -/
theorem cpuid_line_same_decoder (env : AsciiEnv) (st : Decoder) (v : Vendor) (cpuid : UInt32)
    (support : Bool) :
    (∃ st' outs, decodeLine env st (cpuidLineOf v.number cpuid) = (st', outs) ∧
      st'.data = true ∧ finals outs = [] ∧ st'.record.m.cpuvendor = v.number ∧
      (parseCpuid st'.record.m.cpuid).1 = (parseCpuid cpuid).1 ∧
      (parseCpuid st'.record.m.cpuid).2.1 = (parseCpuid cpuid).2.1 ∧
      setupCpuid support st'.record.m.cpuvendor st'.record.m.cpuid =
        setupCpuid support v.number cpuid) ∧
    ∀ family model, (∃ c step, parseCpuid c = (family, model, step)) →
      ∃ step, parseCpuid (unparseCpuid family model) = (family, model, step) := by
  refine ⟨?_, ?_⟩
  · obtain ⟨r, outs, hvalues, houts, hread⟩ := cpuidLineOf_takes env v cpuid st
    have hvendor : r.m.cpuvendor = v.number := congrArg (fun x : Values => x.m.cpuvendor) hvalues
    have hcpuid : r.m.cpuid = unparseCpuid (parseCpuid cpuid).1 (parseCpuid cpuid).2.1 :=
      congrArg (fun x : Values => x.m.cpuid) hvalues
    have hparse := parseCpuid_unparseCpuid (fitsCpuid_parseCpuid cpuid)
    rw [← hcpuid] at hparse
    have hfamily : (parseCpuid r.m.cpuid).1 = (parseCpuid cpuid).1 := by rw [hparse]
    have hmodel : (parseCpuid r.m.cpuid).2.1 = (parseCpuid cpuid).2.1 := by rw [hparse]
    refine ⟨⟨r, st.data || true⟩, outs, hread, Bool.or_true _, houts, hvendor, hfamily, hmodel, ?_⟩
    show setupCpuid support r.m.cpuvendor r.m.cpuid = _
    rw [hvendor]
    exact setupCpuid_congr hfamily hmodel support v.number
  · rintro family model ⟨c, step, hc⟩
    have hfits := fitsCpuid_parseCpuid c
    rw [hc] at hfits
    exact ⟨0, parseCpuid_unparseCpuid hfits⟩

end Mcelog.Ascii
