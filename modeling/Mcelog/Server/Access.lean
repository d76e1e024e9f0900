import Mcelog.Config.Model
import Mcelog.Server.Connection

/-!
# Who may use the client socket

`mcelog.conf` says that a client has to be root, or to match both the configured user and
the configured group, where `*` and a missing group match any. In the code `*` is the id
`-1`, which `access_check` takes as "never equal", and the two tests are joined by `||`.

* `Documented`: the rule of `mcelog.conf`.
* `access_rule_iff`: for which configurations and clients `access_check` follows it.
-/

namespace Mcelog.Server

open Config

/-! ## Configuration -/

/-- One half of `config_cred` (config.c:338-348 and 351-361): `*` is stored as `-1`, and an
    unknown name changes nothing. -/
def credId (resolve : List Char → Option UInt32) (s : Option (List Char)) (id : UInt32) : UInt32 :=
  match s with
  | none => id
  | some s => if s = "*".toList then -1 else (resolve s).getD id

/-- `config_cred` (config.c:333-364). `getpwnam` and `getgrnam` give the id of a name. -/
def configCred (getpwnam getgrnam : List Char → Option UInt32) (c : Config)
    (header base : List Char) (cred : ConfigCred) : ConfigCred :=
  { uid := credId getpwnam (configString c header (base ++ "-user".toList)) cred.uid
    gid := credId getgrnam (configString c header (base ++ "-group".toList)) cred.gid }

/-- `acc` after `server_config` (server.c:55, 275-280). -/
def serverConfig (getpwnam getgrnam : List Char → Option UInt32) (c : Config) : ConfigCred :=
  configCred getpwnam getgrnam c "server".toList "client".toList {}

/-! ## The documented rule -/

/-- What is configured for `client-user` or `client-group`. -/
inductive Rule
  | unset
  /-- `*` -/
  | any
  /-- a name that resolves to this id -/
  | id (n : UInt32)
deriving DecidableEq

/-- What an entry of the config file says; nothing, if its name is unknown. -/
def Rule.read (resolve : List Char → Option UInt32) : Option (List Char) → Option Rule
  | none => some .unset
  | some s => if s = "*".toList then some .any else (resolve s).map .id

/-- The user matches. Without `client-user` only root does. -/
def Rule.matchesUser : Rule → UInt32 → Prop
  | .unset, uid => uid = 0
  | .any, _ => True
  | .id n, uid => uid = n

/-- The group matches. Without `client-group` any group does. -/
def Rule.matchesGroup : Rule → UInt32 → Prop
  | .id n, gid => gid = n
  | _, _ => True

/-- The rule of mcelog.conf:80-89. -/
def Documented (user group : Rule) (uc : Ucred) : Prop :=
  uc.uid = 0 ∨ user.matchesUser uc.uid ∧ group.matchesGroup uc.gid

/-! ## What the code does -/

/-- The id is configured by name, and it is not the one that stands for `*`. -/
def Rule.names (r : Rule) (id : UInt32) : Prop := r = .id id ∧ id ≠ -1

section

variable {resolve getpwnam getgrnam : List Char → Option UInt32} {s : Option (List Char)}
  {user group : Rule} {uc : Ucred}

/-- The stored id equals the client's if and only if a name was configured for it; the
    default for a missing entry is never equal. -/
theorem credId_eq_iff (default : UInt32) {id : UInt32} (h : Rule.read resolve s = some user)
    (hdefault : ¬(default ≠ -1 ∧ id = default)) :
    credId resolve s default ≠ -1 ∧ id = credId resolve s default ↔ user.names id := by
  unfold Rule.names
  cases s with
  | none =>
    obtain rfl : Rule.unset = user := Option.some.inj h
    simpa [credId] using hdefault
  | some s =>
    rw [Rule.read] at h
    rw [credId]
    split_ifs at h ⊢
    · obtain rfl : Rule.any = user := Option.some.inj h
      simp
    · obtain ⟨n, hn, rfl⟩ := Option.map_eq_some_iff.mp h
      rw [hn, Option.getD_some, Rule.id.injEq]
      constructor
      · rintro ⟨hne, rfl⟩
        exact ⟨rfl, hne⟩
      · rintro ⟨rfl, hne⟩
        exact ⟨hne, rfl⟩

/-- A client is let in that is root, or that matches either name. -/
theorem isAllowed_iff {c : Config}
    (huser : Rule.read getpwnam (configString c "server".toList "client-user".toList) = some user)
    (hgroup : Rule.read getgrnam (configString c "server".toList "client-group".toList) =
      some group) (uc : Ucred) :
    isAllowed (serverConfig getpwnam getgrnam c) uc = true ↔
      uc.uid = 0 ∨ user.names uc.uid ∨ group.names uc.gid := by
  by_cases hroot : uc.uid = 0
  · simp [isAllowed, hroot]
  · have hu := credId_eq_iff 0 huser fun hand => hroot hand.2
    have hg : _ ↔ group.names uc.gid := credId_eq_iff (-1) hgroup fun hand => hand.1 rfl
    rw [← hu, ← hg]
    simp [isAllowed, serverConfig, configCred, hroot]

/-- The code follows the documented rule for this client. For an id other than the one that
    stands for `*`: the client is root; one of the two entries is a name and the other one
    matches any; both are names and the client matches both or none; or there is no
    `client-user` and the client is not in `client-group`. -/
def FollowsRule (user group : Rule) (uc : Ucred) : Prop :=
  uc.uid = 0 ∨
  match user, group with
  | .unset, group => ¬group.names uc.gid
  | .any, .id g => ¬(uc.gid = g ∧ g = -1)
  | .any, _ => False
  | .id u, .id g =>
    if uc.uid = u then (if uc.gid = g then u ≠ -1 ∨ g ≠ -1 else u = -1)
    else ¬(uc.gid = g ∧ g ≠ -1)
  | .id u, _ => ¬(uc.uid = u ∧ u = -1)

/-- **Access control.** For every configuration and every client, `access_check` grants
    access exactly when mcelog.conf says so, if and only if `FollowsRule`. -/
theorem access_rule_iff {c : Config}
    (huser : Rule.read getpwnam (configString c "server".toList "client-user".toList) = some user)
    (hgroup : Rule.read getgrnam (configString c "server".toList "client-group".toList) =
      some group) (uc : Ucred) (refused : ℕ) :
    ((accessCheck (serverConfig getpwnam getgrnam c) (some uc) refused).1 = 0 ↔
      Documented user group uc) ↔ FollowsRule user group uc := by
  have hgranted : (accessCheck (serverConfig getpwnam getgrnam c) (some uc) refused).1 = 0 ↔
      uc.uid = 0 ∨ user.names uc.uid ∨ group.names uc.gid := by
    rw [← isAllowed_iff huser hgroup uc]
    cases hallowed : isAllowed (serverConfig getpwnam getgrnam c) uc with
    | true => simp [accessCheck_allowed hallowed]
    | false => simp [accessCheck_not_allowed hallowed]
  rw [hgranted]
  unfold Documented FollowsRule Rule.names
  by_cases hroot : uc.uid = 0
  · simp [hroot]
  · cases user with
    | unset => simp [hroot, Rule.matchesUser]
    | any =>
      cases group with
      | unset => simp [hroot, Rule.matchesUser, Rule.matchesGroup]
      | any => simp [hroot, Rule.matchesUser, Rule.matchesGroup]
      | id g =>
        simp only [hroot, Rule.matchesUser, Rule.matchesGroup, Rule.id.injEq, reduceCtorEq]
        grind
    | id u =>
      cases group with
      | unset =>
        simp only [hroot, Rule.matchesUser, Rule.matchesGroup, Rule.id.injEq, reduceCtorEq]
        grind
      | any =>
        simp only [hroot, Rule.matchesUser, Rule.matchesGroup, Rule.id.injEq, reduceCtorEq]
        grind
      | id g =>
        simp only [hroot, Rule.matchesUser, Rule.matchesGroup, Rule.id.injEq]
        by_cases huid : uc.uid = u <;> by_cases hgid : uc.gid = g <;> grind

/-! ## Two configurations -/

/-- A user database with two users, and a group database with one group. -/
def samplePasswd (name : List Char) : Option UInt32 :=
  if name = "root".toList then some 0 else if name = "carol".toList then some 1000 else none

def sampleGroup (name : List Char) : Option UInt32 :=
  if name = "users".toList then some 100 else none

/-- The store that a text leaves. -/
def storeOf (text : String) : Config := (parseConfigFile text.toList).toOption.getD {}

/-- One user is named: that user is let in. -/
def namedUser : Config := storeOf "[server]\nclient-user = carol\n"

/-- Any user. -/
def anyUser : Config := storeOf "[server]\nclient-user = *\n"

/-- One user and one group. -/
def namedBoth : Config := storeOf "[server]\nclient-user = root\nclient-group = users\n"

theorem namedUser_follows :
    Rule.read samplePasswd (configString namedUser "server".toList "client-user".toList) =
      some (.id 1000) ∧
    Rule.read sampleGroup (configString namedUser "server".toList "client-group".toList) =
      some .unset ∧
    ((accessCheck (serverConfig samplePasswd sampleGroup namedUser)
        (some { uid := 1000, gid := 5 }) 0).1 = 0 ↔
      Documented (.id 1000) .unset { uid := 1000, gid := 5 }) := by
  have huser : Rule.read samplePasswd
      (configString namedUser "server".toList "client-user".toList) = some (.id 1000) := by
    decide +kernel
  have hgroup : Rule.read sampleGroup
      (configString namedUser "server".toList "client-group".toList) = some .unset := by
    decide +kernel
  refine ⟨huser, hgroup, (access_rule_iff huser hgroup _ 0).mpr (.inr ?_)⟩
  decide

/-- `*` lets nobody in, and a member of the group does not need to be the user. -/
theorem access_rule_violated :
    (Rule.read samplePasswd (configString anyUser "server".toList "client-user".toList) =
        some .any ∧
      Rule.read sampleGroup (configString anyUser "server".toList "client-group".toList) =
        some .unset ∧
      Documented .any .unset { uid := 1000, gid := 100 } ∧
      (accessCheck (serverConfig samplePasswd sampleGroup anyUser)
        (some { uid := 1000, gid := 100 }) 0).1 ≠ 0) ∧
    Rule.read samplePasswd (configString namedBoth "server".toList "client-user".toList) =
        some (.id 0) ∧
      Rule.read sampleGroup (configString namedBoth "server".toList "client-group".toList) =
        some (.id 100) ∧
      ¬Documented (.id 0) (.id 100) { uid := 1000, gid := 100 } ∧
      (accessCheck (serverConfig samplePasswd sampleGroup namedBoth)
        (some { uid := 1000, gid := 100 }) 0).1 = 0 := by
  refine ⟨⟨by decide +kernel, by decide +kernel, .inr ⟨trivial, trivial⟩, by decide +kernel⟩,
    by decide +kernel, by decide +kernel, ?_, by decide +kernel⟩
  rintro (hroot | ⟨huser, -⟩)
  · exact absurd hroot (by decide)
  · exact absurd (show (1000 : UInt32) = 0 from huser) (by decide)

end

end Mcelog.Server
