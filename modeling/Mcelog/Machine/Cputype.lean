import Mathlib.Data.Nat.Notation

/-!
# CPU types

Model of `enum cputype`, which `mkcputype` generates from `cputype.table`: five
fixed entries, then `CPU_INTEL` and every Intel type after it. The code tests
the vendor by comparing enumerators, so the order of the constructors is part
of the model.
-/

namespace Mcelog.Machine

/-- `enum cputype` (mkcputype:3-16 and the rows of cputype.table in order). -/
inductive CpuType
  | generic | k8 | zhaoxin | zhaoxinKh40000 | zhaoxinKh50000
  | intel | p4 | tulsa
  | alderlake | arrowlake | atom | broadwell | broadwellDe | broadwellEpex | clearwaterforest
  | cometlake | core2 | denverton | diamondrapids | dunnington | emeraldrapids | grandridge
  | graniterapids | haswell | haswellEpex | icelake | icelakeDe | icelakeXeon | ivyBridge
  | ivyBridgeEpex | kabylake | knightsLanding | knightsMill | lakefield | lunarlake
  | meteorlake | nehalem | novalake | p6old | pantherlake | raptorlake | rocketlake
  | sandyBridge | sandyBridgeEp | sapphirerapids | sierraforest | skylake | skylakeXeon
  | tigerlake | tremontD | wildcatlake | xeon75xx
  deriving DecidableEq, Repr

namespace CpuType

/-- `is_intel_cpu` (intel.c:85-88). -/
def isIntelCpu (cpu : CpuType) : Bool := cpu.ctorIdx ≥ intel.ctorIdx

/-- The vendor test of `mce_filter` and `dump_mce`:
    `cputype >= CPU_ZHAOXIN && cputype <= CPU_ZHAOXIN_KH50000`. -/
def isZhaoxinCpu (cpu : CpuType) : Bool :=
  cpu.ctorIdx ≥ zhaoxin.ctorIdx && cpu.ctorIdx ≤ zhaoxinKh50000.ctorIdx

/-- `intel_cpu_init` (intel.c:36-44): the value it gives `memory_error_support`. -/
def intelCpuInit : CpuType → Bool
  | atom | core2 | dunnington | generic | k8 | p4 | p6old | tulsa => false
  | _ => true

end CpuType

end Mcelog.Machine
