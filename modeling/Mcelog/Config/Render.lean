import Mcelog.Config.Lookup

/-!
# Writing a config file

The statements of a file can be written back, one for each line. What is written is read as
the same statements, and it leaves the same store as the file that they come from: comments,
blank lines and white space are all that is lost. A file that is not accepted stops the
program at its first line that says nothing.

* `statement_renderLine`: a statement is read back from its line.
* `writable_of_statement`: what a line says can be written.
* `config_file_outcome`: the store or the error of any file, and its normal form.
-/

namespace Mcelog.Config

open Common

/-! ## Writing -/

/-- The line of a statement, without its end. -/
def renderLine : Statement → List Char
  | .header name => '[' :: name ++ [']']
  | .assign name val => name ++ " = ".toList ++ val

/-- The lines of the statements. -/
def render (ss : List Statement) : List Char := ss.flatMap fun s => renderLine s ++ ['\n']

/-- A text without comment, end of line and NUL. -/
structure Plain (text : List Char) : Prop where
  comment : '#' ∉ text
  newline : '\n' ∉ text
  nul : '\x00' ∉ text

/-- A statement that a line can say. -/
def Writable : Statement → Prop
  | .header name => Plain name ∧ ']' ∉ name
  | .assign name val => Plain name ∧ '=' ∉ name ∧ strip name = name ∧ name.head? ≠ some '[' ∧
      Plain val ∧ strip val = val

/-- The statements one after the other. -/
def executeAll (st : Parser) (ss : List Statement) : Parser :=
  ss.foldl (fun st s => execute st (some s)) st

variable {a b l line name text val : List Char} {ls : List (List Char)} {s : Statement}
  {ss : List Statement} {st : Parser} {c : Char} {n : ℕ}

/-! ## White space -/

/-- White space goes at the outer ends only. -/
theorem rdropWhile_append_cons (hc : isSpace c = false) (a b : List Char) :
    (a ++ c :: b).rdropWhile isSpace = a ++ c :: b.rdropWhile isSpace := by
  induction b using List.reverseRecOn with
  | nil => exact List.rdropWhile_concat_neg isSpace a c (by simp [hc])
  | append_singleton b x ih =>
    rw [← List.cons_append, ← List.append_assoc, List.rdropWhile_concat, List.rdropWhile_concat]
    split_ifs
    · exact ih
    · simp

theorem strip_append_cons (hc : isSpace c = false) (a b : List Char) :
    strip (a ++ c :: b) = a.dropWhile isSpace ++ c :: b.rdropWhile isSpace := by
  have hfront : (a ++ c :: b).dropWhile isSpace = a.dropWhile isSpace ++ c :: b := by
    rw [List.dropWhile_append]
    split_ifs with hnil
    · rw [List.isEmpty_iff.mp hnil, List.dropWhile_cons_of_neg (by simp [hc])]
      rfl
    · rfl
  rw [strip, hfront, rdropWhile_append_cons hc]

theorem strip_cons (hc : isSpace c = false) (b : List Char) :
    strip (c :: b) = c :: b.rdropWhile isSpace := strip_append_cons hc [] b

/-- A text that is not blank starts with white space and another character. -/
theorem strip_cases (text : List Char) :
    strip text = [] ∨ ∃ (c : Char) (rest : List Char),
      isSpace c = false ∧ strip text = c :: rest.rdropWhile isSpace := by
  cases hdrop : text.dropWhile isSpace with
  | nil =>
    rw [strip, hdrop]
    exact .inl rfl
  | cons c rest =>
    have hne : text.dropWhile isSpace ≠ [] := by
      rw [hdrop]
      exact List.cons_ne_nil c rest
    have hc : isSpace c = false := by
      have hhead := List.head_dropWhile_not isSpace hne
      simpa only [hdrop, List.head_cons] using hhead
    refine .inr ⟨c, rest, hc, ?_⟩
    rw [strip, hdrop]
    exact rdropWhile_append_cons hc [] rest

theorem strip_idempotent (text : List Char) : strip (strip text) = strip text := by
  rcases strip_cases text with hnil | ⟨c, rest, hc, htext⟩
  · rw [hnil]
    rfl
  · rw [htext, strip_cons hc, List.rdropWhile_idempotent]

theorem strip_dropWhile (text : List Char) : strip (text.dropWhile isSpace) = strip text := by
  rw [strip, List.dropWhile_idempotent, strip]

theorem strip_rdropWhile (text : List Char) : strip (text.rdropWhile isSpace) = strip text := by
  have h := @strip_append [] (text.rtakeWhile isSpace) (by simp)
    (fun c hc => List.mem_rtakeWhile_imp hc) (text.rdropWhile isSpace)
  rw [List.nil_append, List.rdropWhile_append_rtakeWhile] at h
  exact h.symm

theorem mem_of_mem_strip (h : c ∈ strip text) : c ∈ text :=
  (List.dropWhile_suffix isSpace).mem ((List.rdropWhile_prefix isSpace _).mem h)

/-- There is no white space in front of a text that was stripped. -/
theorem isSpace_of_head?_strip (h : (strip text).head? = some c) : isSpace c = false := by
  rcases strip_cases text with hnil | ⟨x, rest, hx, htext⟩
  · rw [hnil] at h
    cases h
  · rw [htext] at h
    exact Option.some.inj h ▸ hx

/-! ## One line -/

/-- The text of a line that is plain. -/
theorem lineText_concat (h : Plain text) : lineText (text ++ ['\n']) = strip text := by
  have hline := @lineText_decorate [] ['\n'] [] (by simp) (by simp [isSpace]) (.inl rfl) text
  rw [List.nil_append, List.append_nil] at hline
  rw [hline, lineText, before_of_notMem h.nul, before_of_notMem h.comment]

theorem Plain.append (ha : Plain a) (hb : Plain b) : Plain (a ++ b) := by
  constructor <;> rw [List.mem_append, not_or]
  · exact ⟨ha.comment, hb.comment⟩
  · exact ⟨ha.newline, hb.newline⟩
  · exact ⟨ha.nul, hb.nul⟩

theorem Plain.mono (h : Plain text) (hsub : ∀ c ∈ a, c ∈ text) : Plain a :=
  ⟨mt (hsub _) h.comment, mt (hsub _) h.newline, mt (hsub _) h.nul⟩

theorem plain_renderLine (h : Writable s) : Plain (renderLine s) := by
  cases s with
  | header name =>
    have hopen : Plain ['['] := ⟨by simp, by simp, by simp⟩
    exact (hopen.append h.1).append ⟨by simp, by simp, by simp⟩
  | assign name val =>
    exact (h.1.append ⟨by simp, by simp, by simp⟩).append h.2.2.2.2.1

theorem before_append_cons (h : c ∉ a) (b : List Char) : before c (a ++ c :: b) = a := by
  have hpos : ∀ x ∈ a, decide (x ≠ c) = true := fun x hx => decide_eq_true fun heq => h (heq ▸ hx)
  rw [before, List.takeWhile_append_of_pos hpos, List.takeWhile_cons_of_neg (by simp),
    List.append_nil]

theorem behind_append_cons (h : c ∉ a) (b : List Char) : behind c (a ++ c :: b) = b := by
  have hpos : ∀ x ∈ a, decide (x ≠ c) = true := fun x hx => decide_eq_true fun heq => h (heq ▸ hx)
  rw [behind, List.dropWhile_append_of_pos hpos, List.dropWhile_cons_of_neg (by simp),
    List.tail_cons]

/-- **A statement is read back from its line.** -/
theorem statement_renderLine (h : Writable s) :
    statement (renderLine s ++ ['\n']) = .ok (some s) := by
  unfold statement
  rw [lineText_concat (plain_renderLine h)]
  cases s with
  | header name =>
    obtain ⟨-, hclose⟩ := h
    have htext : strip (renderLine (.header name)) = ('[' :: name) ++ ']' :: [] :=
      strip_append_cons (by decide) ('[' :: name) []
    have hnotMem : ']' ∉ '[' :: name := by
      rw [List.mem_cons, not_or]
      exact ⟨by decide, hclose⟩
    dsimp only
    rw [htext, before_append_cons hnotMem, behind_append_cons hnotMem, List.cons_append,
      List.head?_cons, if_pos rfl, if_pos (by simp)]
    rfl
  | assign name val =>
    obtain ⟨-, hassign, hname, hhead, -, hval⟩ := h
    have hline : renderLine (.assign name val) = (name ++ [' ']) ++ '=' :: (' ' :: val) := by
      simp [renderLine]
    have hstrip : strip (name ++ [' ']) = name := by
      have h := @strip_append [] [' '] (by simp) (by simp [isSpace]) name
      rwa [List.nil_append, hname] at h
    have hstrip' : strip (' ' :: val) = val := by
      have h := @strip_append [' '] [] (by simp [isSpace]) (by simp) val
      rwa [List.append_nil, hval] at h
    have hnotMem : '=' ∉ (name ++ [' ']).dropWhile isSpace := by
      intro hmem
      have hmem := (List.dropWhile_suffix isSpace).mem hmem
      rw [List.mem_append] at hmem
      exact hmem.elim hassign (by decide)
    rw [hline, strip_append_cons (by decide)]
    have hopen : ((name ++ [' ']).dropWhile isSpace ++
        '=' :: (' ' :: val).rdropWhile isSpace).head? ≠ some '[' := by
      intro hopen
      cases hdrop : (name ++ [' ']).dropWhile isSpace with
      | nil =>
        rw [hdrop] at hopen
        cases hopen
      | cons x xs =>
        rw [hdrop] at hopen
        obtain rfl : x = '[' := Option.some.inj hopen
        have hfirst : (strip (name ++ [' '])).head? = some '[' := by
          rw [← strip_dropWhile, hdrop, strip_cons (by decide)]
          rfl
        rw [hstrip] at hfirst
        exact hhead hfirst
    dsimp only
    rw [if_neg hopen, if_pos (by simp), before_append_cons hnotMem, behind_append_cons hnotMem,
      strip_dropWhile, strip_rdropWhile, hstrip, hstrip']

/-- The text of a line that was read is plain. -/
theorem plain_lineText (hl : '\n' ∉ l) (hline : line = l ++ ['\n'] ∨ line = l) :
    Plain (lineText line) := by
  have htext : lineText line = lineText l := by
    rcases hline with rfl | rfl
    · have h := @lineText_decorate [] ['\n'] [] (by simp) (by simp [isSpace]) (.inl rfl) l
      rwa [List.nil_append, List.append_nil] at h
    · rfl
  rw [htext]
  have hsub : ∀ c ∈ lineText l, c ∈ before '#' (before '\x00' l) := fun c => mem_of_mem_strip
  have hfront : ∀ (c : Char) (text : List Char), ∀ x ∈ before c text, x ∈ text :=
    fun c text x hx => (List.takeWhile_prefix _).mem hx
  refine ⟨fun h => notMem_before _ _ (hsub _ h), fun h => hl ?_, fun h => ?_⟩
  · exact hfront _ _ _ (hfront _ _ _ (hsub _ h))
  · exact notMem_before _ _ (hfront _ _ _ (hsub _ h))

/-- **What a line says can be written.** -/
theorem writable_of_statement (hl : '\n' ∉ l) (hline : line = l ++ ['\n'] ∨ line = l)
    (h : statement line = .ok (some s)) : Writable s := by
  have hplain := plain_lineText hl hline
  have hstripped : strip (lineText line) = lineText line := strip_idempotent _
  unfold statement at h
  generalize lineText line = t at h hplain hstripped
  dsimp only at h
  have hbefore : ∀ (c : Char), ∀ x ∈ before c t, x ∈ t :=
    fun c x hx => (List.takeWhile_prefix _).mem hx
  split_ifs at h with hopen hclose hblank hassign hnil
  · obtain rfl := Option.some.inj (Except.ok.inj h)
    exact ⟨hplain.mono fun x hx => hbefore _ x (List.mem_of_mem_tail hx),
      fun hmem => notMem_before _ _ (List.mem_of_mem_tail hmem)⟩
  · obtain rfl := Option.some.inj (Except.ok.inj h)
    have hbehind : ∀ x ∈ behind '=' t, x ∈ t := fun x hx =>
      (List.dropWhile_suffix _).mem (List.mem_of_mem_tail hx)
    refine ⟨hplain.mono fun x hx => hbefore _ x (mem_of_mem_strip hx),
      fun hmem => notMem_before _ _ (mem_of_mem_strip hmem), strip_idempotent _, fun hhead => ?_,
      hplain.mono fun x hx => hbehind x (mem_of_mem_strip hx), strip_idempotent _⟩
    -- The text starts with its name, without white space in front.
    have hsplit := before_append_behind hassign
    cases hname : before '=' t with
    | nil =>
      rw [hname] at hhead
      cases hhead
    | cons x xs =>
      have hfirst : t.head? = some x := by
        rw [← hsplit, hname]
        rfl
      have hspace : isSpace x = false := isSpace_of_head?_strip (hstripped.symm ▸ hfirst)
      rw [hname, strip_cons hspace] at hhead
      rw [Option.some.inj hhead] at hfirst
      exact hopen hfirst
  · cases Except.ok.inj h

/-! ## The lines of a file -/

theorem getlines_line_append (hl : '\n' ∉ l) (text : List Char) :
    getlines (l ++ '\n' :: text) = (l ++ ['\n']) :: getlines text := by
  rw [getlines, lines_line_append hl, rest_line_append hl, getlines]
  rfl

/-- The lines of what is written. -/
theorem getlines_render (h : ∀ s ∈ ss, Writable s) :
    getlines (render ss) = ss.map fun s => renderLine s ++ ['\n'] := by
  induction ss with
  | nil => rfl
  | cons s ss ih =>
    have hline := (plain_renderLine (h s List.mem_cons_self)).newline
    rw [render, List.flatMap_cons, List.append_assoc, List.singleton_append,
      getlines_line_append hline, List.map_cons,
      ← ih fun s' hs' => h s' (List.mem_cons_of_mem _ hs')]
    rfl

/-- A line ends at the first end of line, or the file does. -/
theorem exists_of_mem_getlines (h : line ∈ getlines text) :
    ∃ l, '\n' ∉ l ∧ (line = l ++ ['\n'] ∨ line = l) := by
  induction text using lines_induction '\n' with
  | hrest text htext =>
    rw [getlines, lines_of_notMem htext, rest_of_notMem htext, List.map_nil, List.nil_append] at h
    split_ifs at h with hnil
    · cases h
    · exact ⟨text, htext, .inr (List.mem_singleton.mp h)⟩
  | hline l text hl ih =>
    rw [getlines_line_append hl] at h
    rcases List.mem_cons.mp h with rfl | h
    · exact ⟨l, hl, .inl rfl⟩
    · exact ih h

/-- What a file says can be written. -/
theorem writable_statements (h : s ∈ statements (getlines text)) : Writable s := by
  obtain ⟨line, hline, hsays⟩ := List.mem_filterMap.mp h
  obtain ⟨l, hl, hends⟩ := exists_of_mem_getlines hline
  cases hstatement : statement line with
  | error msg =>
    rw [hstatement] at hsays
    cases hsays
  | ok s' =>
    rw [hstatement] at hsays
    obtain rfl : s' = some s := hsays
    exact writable_of_statement hl hends hstatement

/-- **The statements are read back.** -/
theorem statements_render (h : ∀ s ∈ ss, Writable s) : statements (getlines (render ss)) = ss := by
  rw [getlines_render h, statements, List.filterMap_map]
  have hsame : ∀ s ∈ ss, ((fun line => (statement line).toOption.join) ∘
      fun s => renderLine s ++ ['\n']) s = some s := by
    intro s hs
    rw [Function.comp_apply, statement_renderLine (h s hs)]
    rfl
  rw [List.filterMap_congr hsame, List.filterMap_some]

/-! ## Runs -/

/-- All lines say something that is understood, or nothing. -/
def Understood (ls : List (List Char)) : Prop := ∀ line ∈ ls, ∃ s, statement line = .ok s

/-- The line number changes nothing else. -/
theorem execute_lineno (st : Parser) (n : ℕ) (s : Statement) :
    execute { st with lineno := n } (some s) = { execute st (some s) with lineno := n + 1 } := by
  cases s <;> rfl

theorem executeAll_lineno (st : Parser) (n : ℕ) (ss : List Statement) :
    (executeAll { st with lineno := n } ss).config = (executeAll st ss).config := by
  induction ss generalizing st n with
  | nil => rfl
  | cons s ss ih =>
    have hstep := execute_lineno st n s
    rw [executeAll, List.foldl_cons, hstep]
    exact ih _ _

/-- A line that is understood. -/
theorem parseLine_of_ok {s : Option Statement} (h : statement line = .ok s) (st : Parser) :
    parseLine st line = .ok (execute st s) := by
  rw [parseLine_eq, h]
  rfl

theorem execute_lineno_eq (st : Parser) (s : Option Statement) :
    (execute st s).lineno = st.lineno + 1 := by
  rcases s with _ | ⟨_ | _⟩ <;> rfl

theorem statements_cons {s : Option Statement} (h : statement line = .ok s)
    (ls : List (List Char)) : statements (line :: ls) = s.toList ++ statements ls := by
  rw [statements, List.filterMap_cons, h]
  cases s <;> rfl

/-- The run over lines that are understood: the store is that of the statements. -/
theorem foldlM_of_understood (h : Understood ls) (st : Parser) :
    ∃ st', ls.foldlM parseLine st = .ok st' ∧ st'.lineno = st.lineno + ls.length ∧
      st'.config = (executeAll st (statements ls)).config := by
  induction ls generalizing st with
  | nil => exact ⟨st, rfl, rfl, rfl⟩
  | cons line ls ih =>
    obtain ⟨s, hs⟩ := h line List.mem_cons_self
    obtain ⟨st', hrun, hlineno, hconfig⟩ :=
      ih (fun l hl => h l (List.mem_cons_of_mem _ hl)) (execute st s)
    refine ⟨st', ?_, ?_, ?_⟩
    · rw [List.foldlM_cons, parseLine_of_ok hs]
      exact hrun
    · rw [hlineno, execute_lineno_eq, List.length_cons, Nat.add_assoc, Nat.add_comm 1]
    · rw [hconfig, statements_cons hs]
      cases s with
      | none => exact executeAll_lineno st (st.lineno + 1) (statements ls)
      | some s => rfl

/-- The run up to the first line that is not understood. -/
theorem foldlM_of_error {front after : List (List Char)} {msg : String} (h : Understood front)
    (hline : statement line = .error msg) (st : Parser) :
    (front ++ line :: after).foldlM parseLine st =
      .error { line := st.lineno + front.length, msg } := by
  obtain ⟨st', hrun, hlineno, -⟩ := foldlM_of_understood h st
  have hbind : ∀ f : Parser → Except ParseError Parser, (Except.ok st' >>= f) = f st' :=
    fun f => rfl
  rw [List.foldlM_append, hrun, hbind, List.foldlM_cons, parseLine_eq, hline, ← hlineno]
  rfl

/-- All lines are understood, or there is a first one that is not. -/
theorem understood_or_error (ls : List (List Char)) :
    Understood ls ∨ ∃ front line after msg,
      ls = front ++ line :: after ∧ Understood front ∧ statement line = .error msg := by
  induction ls with
  | nil => exact .inl fun line h => absurd h List.not_mem_nil
  | cons line ls ih =>
    cases hline : statement line with
    | error msg => exact .inr ⟨[], line, ls, msg, rfl, fun _ h => absurd h List.not_mem_nil, hline⟩
    | ok s =>
      have hcons : ∀ ls, Understood ls → Understood (line :: ls) := by
        intro ls hls l hl
        rcases List.mem_cons.mp hl with rfl | hl
        · exact ⟨s, hline⟩
        · exact hls l hl
      rcases ih with hall | ⟨front, line', after, msg, rfl, hfront, herror⟩
      · exact .inl (hcons ls hall)
      · exact .inr ⟨line :: front, line', after, msg, rfl, hcons front hfront, herror⟩

/-- The store of a file that is accepted. -/
theorem parseConfigFile_of_understood (h : Understood (getlines text)) :
    parseConfigFile text = .ok (executeAll {} (statements (getlines text))).config := by
  obtain ⟨st', hrun, -, hconfig⟩ := foldlM_of_understood h {}
  rw [parseConfigFile, hrun, ← hconfig]
  rfl

theorem parseConfigFile_of_error {front after : List (List Char)} {msg : String}
    (hsplit : getlines text = front ++ line :: after) (h : Understood front)
    (hline : statement line = .error msg) :
    parseConfigFile text = .error { line := front.length + 1, msg } := by
  rw [parseConfigFile, hsplit, foldlM_of_error h hline, Nat.add_comm]
  rfl

theorem understood_render (h : ∀ s ∈ ss, Writable s) : Understood (getlines (render ss)) := by
  rw [getlines_render h]
  intro line hline
  obtain ⟨s, hs, rfl⟩ := List.mem_map.mp hline
  exact ⟨_, statement_renderLine (h s hs)⟩

/-- **The outcome of a config file.** A file is accepted exactly if all its lines are
    understood. Then its statements can be written, and what is written has the same statements
    and leaves the same store. Otherwise the program stops at the first line that is not
    understood, with the number of this line. Every list of statements that can be written is
    read back. -/
theorem config_file_outcome (text : List Char) :
    (∀ c, parseConfigFile text = .ok c → Understood (getlines text) ∧
      parseConfigFile (render (statements (getlines text))) = .ok c) ∧
    (∀ e, parseConfigFile text = .error e ↔ ∃ front line after,
      getlines text = front ++ line :: after ∧ Understood front ∧
      statement line = .error e.msg ∧ e.line = front.length + 1) ∧
    ∀ ss, (∀ s ∈ ss, Writable s) ↔ statements (getlines (render ss)) = ss := by
  refine ⟨fun c hc => ?_, fun e => ⟨fun he => ?_, ?_⟩, fun ss => ⟨statements_render, fun h => ?_⟩⟩
  · rcases understood_or_error (getlines text) with hall | ⟨front, line, after, msg, hsplit, h, hl⟩
    · have hwritable : ∀ s ∈ statements (getlines text), Writable s :=
        fun s hs => writable_statements hs
      refine ⟨hall, ?_⟩
      rw [← hc, parseConfigFile_of_understood hall,
        parseConfigFile_of_understood (understood_render hwritable), statements_render hwritable]
    · rw [parseConfigFile_of_error hsplit h hl] at hc
      cases hc
  · rcases understood_or_error (getlines text) with hall | ⟨front, line, after, msg, hsplit, h, hl⟩
    · rw [parseConfigFile_of_understood hall] at he
      cases he
    · rw [parseConfigFile_of_error hsplit h hl] at he
      obtain rfl := Except.error.inj he
      exact ⟨front, line, after, hsplit, h, hl, rfl⟩
  · rintro ⟨front, line, after, hsplit, h, hl, hnumber⟩
    rw [parseConfigFile_of_error hsplit h hl, ← hnumber]
  · intro s hs
    rw [← h] at hs
    exact writable_statements hs

/-- The sample in its normal form, and a header that does not end. -/
theorem config_file_outcome_sample :
    parseConfigFile "a = 1\n[page]\nb = 2\n[global]\na = 3\n[page]\nb = 4\n".toList =
      .ok sampleConfig ∧
    parseConfigFile "# a\n[page\n".toList = .error ⟨2, "Header without ending ]"⟩ := by
  have hparse : parseConfigFile sampleFile = .ok sampleConfig := by rfl
  have hrender : render (statements (getlines sampleFile)) =
    "a = 1\n[page]\nb = 2\n[global]\na = 3\n[page]\nb = 4\n".toList := by decide +kernel
  constructor
  · rw [← hrender]
    exact ((config_file_outcome sampleFile).1 sampleConfig hparse).2
  · have hblank : statement "# a\n".toList = .ok none := by rfl
    refine ((config_file_outcome _).2.1 _).mpr
      ⟨["# a\n".toList], "[page\n".toList, [], by rfl, fun line hline => ?_, by rfl, rfl⟩
    obtain rfl := List.mem_singleton.mp hline
    exact ⟨none, hblank⟩

end Mcelog.Config
