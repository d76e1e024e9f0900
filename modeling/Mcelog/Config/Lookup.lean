import Mcelog.Config.Line
import Mcelog.Config.Store

/-!
# The first assignment wins

What a config file means, without the store: its statements in file order, each assignment
in the section of the last header before it, and a name has the value that it was given
first.

* `assignments`: the assignments of a file.
* `follows_execute`: a statement extends the store by what it says.
* `config_string_first`: `config_string` returns the first assignment.
-/

namespace Mcelog.Config

open Common

/-! ## What a file means -/

/-- The statements of a file, in order. Blank lines are none. -/
def statements (ls : List (List Char)) : List Statement :=
  ls.filterMap fun line => (statement line).toOption.join

/-- The section behind a statement. -/
def sectionAfter (cur : List Char) : Statement → List Char
  | .header name => name
  | .assign _ _ => cur

/-- The assignments of a file, each with its section. -/
def assignments (cur : List Char) : List Statement → List Assignment
  | [] => []
  | .header name :: ss => assignments name ss
  | .assign name val :: ss => { header := cur, name, val } :: assignments cur ss

/-- The value that `name` is given first in the sections called `header`. -/
def firstValue (header name : List Char) (as : List Assignment) : Option (List Char) :=
  as.findSome? fun a => a.valueFor header name

theorem assignments_cons (cur : List Char) (s : Statement) (ss : List Statement) :
    assignments cur (s :: ss) = assignments cur [s] ++ assignments (sectionAfter cur s) ss := by
  cases s <;> rfl

/-! ## The store follows the statements -/

/-- The store holds these assignments, and the next one belongs to `cur`. -/
def Follows (st : Parser) (as : List Assignment) (cur : List Char) : Prop :=
  ∃ names log, Represents st.config names log ∧ st.hdr = (List.range names.length).getLast? ∧
    log.map Entry.assigned = as ∧ names.getLastD "global".toList = cur

variable {st : Parser} {as : List Assignment} {cur : List Char}

theorem follows_init : Follows {} [] "global".toList := ⟨[], [], represents_empty, rfl, rfl, rfl⟩

/-- The section of a new option exists, as the last one. -/
theorem Follows.currentHeader (h : Follows st as cur) :
    ∃ names log, Represents (currentHeader st).1 names log ∧
      (currentHeader st).2 + 1 = names.length ∧ names[(currentHeader st).2]? = some cur ∧
      log.map Entry.assigned = as ∧ names.getLastD "global".toList = cur := by
  obtain ⟨names, log, hrep, hhdr, has, hcur⟩ := h
  rcases List.eq_nil_or_concat names with rfl | ⟨names, name, rfl⟩
  · -- The implicit header.
    have hst : Config.currentHeader st = newHeader st.config none "global".toList := by
      rw [Config.currentHeader, hhdr]
      rfl
    have hzero : (newHeader st.config none "global".toList).2 = 0 := hrep.numHeaders
    rw [hst, hzero]
    subst hcur
    exact ⟨_, log, represents_newHeader hrep rfl _, rfl, rfl, has, rfl⟩
  · have hst : Config.currentHeader st = (st.config, names.length) := by
      rw [Config.currentHeader, hhdr]
      simp [List.range_succ]
    rw [hst]
    refine ⟨_, log, hrep, by simp, ?_, has, hcur⟩
    rw [← hcur]
    simp

/-- One step: a statement extends the store by what it says. -/
theorem follows_execute (h : Follows st as cur) (s : Statement) :
    Follows (execute st (some s)) (as ++ assignments cur [s]) (sectionAfter cur s) := by
  cases s with
  | header name =>
    obtain ⟨names, log, hrep, hhdr, has, -⟩ := h
    refine ⟨_, log, represents_newHeader hrep hhdr name, ?_, ?_, ?_⟩
    · show some (newHeader st.config st.hdr name).2 = _
      rw [newHeader_snd, hrep.numHeaders]
      simp [List.range_succ]
    · simpa [assignments] using has
    · simp [sectionAfter]
  | assign name val =>
    obtain ⟨names, log, hrep, hlast, hname, has, hcur⟩ := h.currentHeader
    refine ⟨names, _, represents_addOpt hrep hlast hname name val, ?_, ?_, hcur⟩
    · show some (Config.currentHeader st).2 = _
      rw [← hlast]
      simp [List.range_succ]
    · rw [List.map_append, has]
      rfl

theorem follows_blank (h : Follows st as cur) : Follows (execute st none) as cur := h

/-- The whole run: after the lines of an accepted file. -/
theorem follows_run {ls : List (List Char)} {st' : Parser} (h : Follows st as cur)
    (hrun : ls.foldlM parseLine st = .ok st') :
    ∃ cur', Follows st' (as ++ assignments cur (statements ls)) cur' := by
  induction ls generalizing st as cur with
  | nil =>
    obtain rfl : st = st' := Except.ok.inj hrun
    refine ⟨cur, ?_⟩
    simpa [statements, assignments] using h
  | cons line ls ih =>
    rw [List.foldlM_cons, parseLine_eq] at hrun
    cases hline : statement line with
    | error msg =>
      rw [hline] at hrun
      cases hrun
    | ok s =>
      rw [hline] at hrun
      change ls.foldlM parseLine (execute st s) = .ok st' at hrun
      cases s with
      | none =>
        have hskip : statements (line :: ls) = statements ls := by
          rw [statements, List.filterMap_cons_none (by rw [hline]; rfl)]
          rfl
        rw [hskip]
        exact ih (follows_blank h) hrun
      | some s =>
        have hcons : statements (line :: ls) = s :: statements ls := by
          rw [statements, List.filterMap_cons_some (b := s) (by rw [hline]; rfl)]
          rfl
        rw [hcons, assignments_cons, ← List.append_assoc]
        exact ih (follows_execute h s) hrun

/-! ## The result -/

/-- The assignments of a whole file: it starts in the section `global`. -/
def fileAssignments (text : List Char) : List Assignment :=
  assignments "global".toList (statements (getlines text))

theorem findOption_of_parse {text : List Char} {c : Config} (h : parseConfigFile text = .ok c)
    (header name : List Char) :
    findOption c header name = firstValue header name (fileAssignments text) := by
  unfold parseConfigFile at h
  cases hrun : (getlines text).foldlM parseLine {} with
  | error e =>
    rw [hrun] at h
    cases h
  | ok st =>
    rw [hrun] at h
    obtain rfl : st.config = c := Except.ok.inj h
    obtain ⟨cur, names, log, hrep, -, has, -⟩ := follows_run follows_init hrun
    rw [List.nil_append] at has
    rw [hrep.findOption_eq, firstValue, fileAssignments, ← has, List.findSome?_map]
    rfl

theorem configString_of_parse {text : List Char} {c : Config} (h : parseConfigFile text = .ok c)
    (header name : List Char) :
    configString c header name =
      (firstValue header name (fileAssignments text)).or
        (if header = "global".toList then none
        else firstValue "global".toList name (fileAssignments text)) := by
  unfold configString
  rw [findOption_of_parse h, findOption_of_parse h, ite_not]
  cases firstValue header name (fileAssignments text) <;> rfl

/-- **Config lookup.** For every accepted file, `config_string` returns the first value that
    the name is given in the sections of this name, and otherwise what it returns for
    `global`. Only the statements of the file count, and these do not depend on comments
    and on the white space around a line. -/
theorem config_string_first {text : List Char} {c : Config} (h : parseConfigFile text = .ok c)
    (header name : List Char) :
    configString c header name =
        (firstValue header name (fileAssignments text)).or
          (if header = "global".toList then none else configString c "global".toList name) ∧
    (∀ text' c', parseConfigFile text' = .ok c' →
      statements (getlines text') = statements (getlines text) →
      configString c' header name = configString c header name) ∧
    ∀ lead line trail comment : List Char, (∀ ch ∈ lead, isSpace ch = true) →
      (∀ ch ∈ trail, isSpace ch = true) → comment = [] ∨ comment.head? = some '#' →
      statement (lead ++ line ++ trail ++ comment) = statement line := by
  refine ⟨?_, fun text' c' h' hsame => ?_, fun lead line trail comment hlead htrail hcomment => ?_⟩
  · rw [configString_of_parse h, configString_of_parse h "global".toList, if_pos rfl,
      Option.or_none]
  · rw [configString_of_parse h, configString_of_parse h', fileAssignments, fileAssignments, hsame]
  · rw [statement, statement, lineText_decorate hlead htrail hcomment]

/-- A repeated section, a comment, and a name with a value in two sections. -/
def sampleFile : List Char :=
  "a = 1 # one\n[page]\n b=2\n[global]\na = 3\n[page]\nb = 4\n".toList

/-- The store of the sample. -/
def sampleConfig : Config := ((parseConfigFile sampleFile).toOption).getD {}

/-- The first of the two values of `b`, and the value of `a` outside the section. -/
theorem config_string_first_sample :
    parseConfigFile sampleFile = .ok sampleConfig ∧
    configString sampleConfig "page".toList "b".toList = some "2".toList ∧
    configString sampleConfig "page".toList "a".toList = some "1".toList := by
  have hparse : parseConfigFile sampleFile = .ok sampleConfig := by rfl
  refine ⟨hparse, ?_, ?_⟩
  · rw [(config_string_first hparse "page".toList "b".toList).1]
    decide +kernel
  · rw [(config_string_first hparse "page".toList "a".toList).1]
    decide +kernel

end Mcelog.Config
