import Mcelog.Bucket.Rate
import Mcelog.Config.Model

/-!
# Typed options

Model of `config_choice`, `config_bool` and `config_trigger`, on top of `config_string`.
`unparseable` and a trigger that cannot be executed end the program; then there is no
result.

* `configTrigger_unset`: a threshold that is not in the file stays zero, capacity and
  period.
-/

namespace Mcelog.Config

open Mcelog.Bucket

/-- `strcasecmp(a, b) == 0` -/
def strcaseEq (a b : List Char) : Bool := a.map Char.toLower == b.map Char.toLower

/-- `config_choice` (config.c:218-229); nothing for an option that is not set. -/
def configChoice {α : Type} (c : Config) (header name : String) (choices : List (String × α)) :
    Option (Option α) :=
  match configString c header.toList name.toList with
  | none => some none
  | some str =>
    match choices.find? fun choice => strcaseEq str choice.1.toList with
    | some choice => some (some choice.2)
    | none => none

/-- `bool_choices` (config.c:233-237) -/
def boolChoices : List (String × Bool) :=
  [("yes", true), ("true", true), ("1", true), ("on", true), ("no", false), ("false", false),
    ("0", false), ("off", false)]

/-- `config_bool` (config.c:231-239) -/
def configBool (c : Config) (header name : String) : Option (Option Bool) :=
  configChoice c header name boolChoices

/-- A `struct bucket_conf` in static memory. -/
def zeroConf : BucketConf := { capacity := 0, agetime := 0, tunit := '\x00' }

/-- The threshold of `config_trigger` (config.c:298-306) -/
def configThreshold (c : Config) (header base : String) (bc : BucketConf) : Option BucketConf :=
  match configString c header.toList (base ++ "-threshold").toList with
  | none => some bc
  | some s =>
    match bucketConfInit bc s with
    | (bc, true) => some bc
    | (_, false) => none

/-- The trigger of `config_trigger` (config.c:310-320). `triggerCheck` tells which triggers
    can be executed. -/
def configProgram (triggerCheck : List Char → Bool) (c : Config) (header base : String)
    (bc : BucketConf) : Option BucketConf :=
  match configString c header.toList (base ++ "-trigger").toList with
  | none => some bc
  | some s => if triggerCheck s then some { bc with trigger := some (String.ofList s) } else none

/-- `config_trigger` (config.c:292-331) -/
def configTrigger (triggerCheck : List Char → Bool) (c : Config) (header base : String)
    (bc : BucketConf) : Option BucketConf := do
  let bc ← configThreshold c header base bc
  let bc ← configProgram triggerCheck c header base bc
  let n ← configBool c header (base ++ "-log")
  some { bc with log := n.getD false }

/-- Only the threshold sets capacity and period. -/
theorem configTrigger_rate {triggerCheck : List Char → Bool} {c : Config} {header base : String}
    {bc bc' : BucketConf} (h : configTrigger triggerCheck c header base bc = some bc') :
    ∃ rate, configThreshold c header base bc = some rate ∧ bc'.capacity = rate.capacity ∧
      bc'.agetime = rate.agetime := by
  obtain ⟨rate, hrate, h⟩ := Option.bind_eq_some_iff.mp h
  obtain ⟨bc₁, htrigger, h⟩ := Option.bind_eq_some_iff.mp h
  obtain ⟨n, -, h⟩ := Option.bind_eq_some_iff.mp h
  obtain rfl := Option.some.inj h
  refine ⟨rate, hrate, ?_⟩
  unfold configProgram at htrigger
  split at htrigger
  · obtain rfl := Option.some.inj htrigger
    exact ⟨rfl, rfl⟩
  · split_ifs at htrigger
    obtain rfl := Option.some.inj htrigger
    exact ⟨rfl, rfl⟩

/-- A threshold that is not configured has no capacity, and no period either. -/
theorem configTrigger_unset {triggerCheck : List Char → Bool} {c : Config} {header base : String}
    {bc : BucketConf}
    (hunset : configString c header.toList (base ++ "-threshold").toList = none)
    (h : configTrigger triggerCheck c header base zeroConf = some bc) :
    bc.capacity = 0 ∧ bc.agetime = 0 := by
  obtain ⟨rate, hrate, hcapacity, hagetime⟩ := configTrigger_rate h
  rw [configThreshold, hunset] at hrate
  obtain rfl := Option.some.inj hrate
  exact ⟨hcapacity, hagetime⟩

end Mcelog.Config
