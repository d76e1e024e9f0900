import Mathlib.Data.List.Basic

/-!
# Long options

`getopt_long` for a table of long options and no short ones, with the GNU order of
arguments: operands stand between the options, an option may be abbreviated, and `--` ends
the options. The elements of the argument vector are C strings; the name of the program is
not one of them.

* `getoptLong`: the options that are delivered one after the other, or none if one of them
  is refused.
* `Parses`: the same as a relation, with one rule for each kind of element.
* `Parses.place`: an argument stands behind the start of its option.
-/

namespace Mcelog.Common

/-! ## Options -/

/-- `struct option` -/
structure LongOption (φ : Type*) where
  name : String
  hasArg : Bool
  flag : Option φ
  val : ℕ
  deriving DecidableEq

/-- A string within the argument vector. -/
structure Place where
  element : ℕ
  offset : ℕ
  deriving DecidableEq, Repr

/-- How an option got its argument. -/
inductive OptArg
  | none
  /-- `--name=value` -/
  | inline (offset : ℕ)
  /-- the next element -/
  | separate (value : List Char)
  deriving DecidableEq, Repr

/-- An option as it is delivered. -/
structure Delivered (φ : Type*) where
  option : LongOption φ
  element : ℕ
  text : List Char
  arg : OptArg
  /-- the elements behind the option and its argument -/
  behind : List (List Char)
  deriving DecidableEq

/-- `optarg` -/
def Delivered.optarg {φ : Type*} (d : Delivered φ) : Option Place :=
  match d.arg with
  | .none => none
  | .inline offset => some ⟨d.element, offset⟩
  | .separate _ => some ⟨d.element + 1, 0⟩

/-! ## Parsing -/

section

variable {φ : Type*} [DecidableEq φ]

/-- An element that is no option: it does not start with `-`, or is nothing else. -/
def isOperand (a : List Char) : Bool := a.head? ≠ some '-' || a = ['-']

/-- The name in `--name` and `--name=value`. -/
def optionName (a : List Char) : List Char := (a.drop 2).takeWhile fun c => c ≠ '='

/-- The option with this name, or the one that it abbreviates. -/
def findLongOption (table : List (LongOption φ)) (name : List Char) : Option (LongOption φ) :=
  match table.find? fun o => o.name.toList = name with
  | some o => some o
  | none =>
    match table.filter fun o => name.isPrefixOf o.name.toList with
    | [] => none
    | o :: os =>
      if os.all fun p => p.hasArg = o.hasArg ∧ p.flag = o.flag ∧ p.val = o.val then some o
      else none

/-- `getopt_long` until it returns -1, from the element number `i` on. -/
def getoptLong (table : List (LongOption φ)) : ℕ → List (List Char) → Option (List (Delivered φ))
  | _, [] => some []
  | i, a :: rest =>
    if isOperand a then getoptLong table (i + 1) rest
    else if a = "--".toList then some []
    -- a short option, of which there are none
    else if ¬ "--".toList.isPrefixOf a then none
    else
      match findLongOption table (optionName a) with
      | none => none
      | some o =>
        if '=' ∈ a.drop 2 then
          if o.hasArg then
            (getoptLong table (i + 1) rest).map
              (⟨o, i, a, .inline ((optionName a).length + 3), rest⟩ :: ·)
          else none
        else if o.hasArg then
          match rest with
          | [] => none
          | v :: rest' =>
            (getoptLong table (i + 2) rest').map (⟨o, i, a, .separate v, rest'⟩ :: ·)
        else (getoptLong table (i + 1) rest).map (⟨o, i, a, .none, rest⟩ :: ·)

/-- The element `a` is the option `o`. -/
structure Spells (table : List (LongOption φ)) (a : List Char) (o : LongOption φ) : Prop where
  not_operand : isOperand a = false
  ne_end : a ≠ "--".toList
  dashes : "--".toList <+: a
  found : findLongOption table (optionName a) = some o

/-- The elements from number `i` on, and the options that they deliver. -/
inductive Parses (table : List (LongOption φ)) :
    ℕ → List (List Char) → List (Delivered φ) → Prop
  | nil (i : ℕ) : Parses table i [] []
  | operand {i : ℕ} {a : List Char} {rest : List (List Char)} {ds : List (Delivered φ)}
      (h : isOperand a = true) (hrest : Parses table (i + 1) rest ds) :
      Parses table i (a :: rest) ds
  | stop (i : ℕ) (rest : List (List Char)) : Parses table i ("--".toList :: rest) []
  | flag {i : ℕ} {a : List Char} {o : LongOption φ} {rest : List (List Char)}
      {ds : List (Delivered φ)} (h : Spells table a o) (hno : '=' ∉ a.drop 2)
      (harg : o.hasArg = false) (hrest : Parses table (i + 1) rest ds) :
      Parses table i (a :: rest) (⟨o, i, a, .none, rest⟩ :: ds)
  | inline {i : ℕ} {a : List Char} {o : LongOption φ} {rest : List (List Char)}
      {ds : List (Delivered φ)} (h : Spells table a o) (heq : '=' ∈ a.drop 2)
      (harg : o.hasArg = true) (hrest : Parses table (i + 1) rest ds) :
      Parses table i (a :: rest) (⟨o, i, a, .inline ((optionName a).length + 3), rest⟩ :: ds)
  | separate {i : ℕ} {a v : List Char} {o : LongOption φ} {rest : List (List Char)}
      {ds : List (Delivered φ)} (h : Spells table a o) (hno : '=' ∉ a.drop 2)
      (harg : o.hasArg = true) (hrest : Parses table (i + 2) rest ds) :
      Parses table i (a :: v :: rest) (⟨o, i, a, .separate v, rest⟩ :: ds)

variable {table : List (LongOption φ)} {i : ℕ} {args : List (List Char)}
  {ds : List (Delivered φ)}

theorem parses_of_getoptLong (h : getoptLong table i args = some ds) : Parses table i args ds := by
  fun_induction getoptLong table i args generalizing ds with
  | case1 i =>
    obtain rfl := Option.some.inj h
    exact .nil i
  | case2 i a rest hop ih => exact .operand hop (ih h)
  | case3 i rest hop =>
    obtain rfl := Option.some.inj h
    exact .stop i rest
  | case4 i a rest hop hend hshort => cases h
  | case5 i a rest hop hend hlong hfind => cases h
  | case6 i a rest hop hend hlong o hfind heq harg ih =>
    obtain ⟨ds', hds', rfl⟩ := Option.map_eq_some_iff.mp h
    exact .inline ⟨by simpa using hop, hend, by simpa using hlong, hfind⟩ heq harg (ih hds')
  | case7 i a rest hop hend hlong o hfind heq harg => cases h
  | case8 i a hop hend hlong o hfind hno harg => cases h
  | case9 i a hop hend hlong o hfind hno harg v rest ih =>
    obtain ⟨ds', hds', rfl⟩ := Option.map_eq_some_iff.mp h
    exact .separate ⟨by simpa using hop, hend, by simpa using hlong, hfind⟩ hno harg (ih hds')
  | case10 i a rest hop hend hlong o hfind hno harg ih =>
    obtain ⟨ds', hds', rfl⟩ := Option.map_eq_some_iff.mp h
    exact .flag ⟨by simpa using hop, hend, by simpa using hlong, hfind⟩ hno
      (by simpa using harg) (ih hds')

/-- An option that is found is in the table. -/
theorem mem_of_findLongOption {name : List Char} {o : LongOption φ}
    (h : findLongOption table name = some o) : o ∈ table := by
  unfold findLongOption at h
  split at h
  · rename_i hexact
    obtain rfl := Option.some.inj h
    exact List.mem_of_find?_eq_some hexact
  · split at h
    · cases h
    · rename_i o' os hfilter
      split_ifs at h
      obtain rfl := Option.some.inj h
      exact List.mem_of_mem_filter (hfilter ▸ List.mem_cons_self)

/-- Its name starts with the name that was given. -/
theorem prefix_of_findLongOption {name : List Char} {o : LongOption φ}
    (h : findLongOption table name = some o) : name <+: o.name.toList := by
  unfold findLongOption at h
  split at h
  · rename_i o' hexact
    obtain rfl := Option.some.inj h
    have hname : o'.name.toList = name := by simpa using List.find?_some hexact
    exact hname ▸ List.prefix_rfl
  · split at h
    · cases h
    · rename_i o' os hfilter
      split_ifs at h
      obtain rfl := Option.some.inj h
      have hmem : o' ∈ table.filter fun o => name.isPrefixOf o.name.toList :=
        hfilter ▸ List.mem_cons_self
      exact List.isPrefixOf_iff_prefix.mp (List.mem_filter.mp hmem).2

/-- An argument stands in the element of its option or behind it. -/
theorem Parses.place (h : Parses table i args ds) {d : Delivered φ} (hd : d ∈ ds) {p : Place}
    (hp : d.optarg = some p) : i ≤ p.element ∧ (p.offset = 0 → i < p.element) := by
  induction h with
  | nil i => cases hd
  | operand hop hrest ih =>
    have := ih hd
    omega
  | stop i rest => cases hd
  | flag h hno harg hrest ih =>
    rcases List.mem_cons.mp hd with rfl | hd
    · cases hp
    · have := ih hd
      omega
  | inline h heq harg hrest ih =>
    rcases List.mem_cons.mp hd with rfl | hd
    · obtain rfl := Option.some.inj hp
      exact ⟨Nat.le_refl _, fun h => by cases h⟩
    · have := ih hd
      omega
  | separate h hno harg hrest ih =>
    rcases List.mem_cons.mp hd with rfl | hd
    · obtain rfl := Option.some.inj hp
      exact ⟨Nat.le_succ _, fun _ => Nat.lt_succ_self _⟩
    · have := ih hd
      omega

end

end Mcelog.Common
