import Mcelog.Config.Model

/-!
# The lines of a config file

A line is edited in place: a NUL cuts off the comment, NULs overwrite the white space at
its end, and one more splits the name from the value. Read as a text, a line is blank, a
header, an assignment or an error.

* `statement`: what a line says.
* `parseLine_eq`: `parse_config_file` does with a line what it says.
-/

namespace Mcelog.Config

open Common

variable {buf line text : List Char} {c : Char} {off : ℕ}

/-! ## Splitting a text -/

/-- The text before the first `c`. -/
def before (c : Char) (text : List Char) : List Char := text.takeWhile (· ≠ c)

/-- The text behind the first `c`. -/
def behind (c : Char) (text : List Char) : List Char := (text.dropWhile (· ≠ c)).tail

theorem notMem_before (c : Char) (text : List Char) : c ∉ before c text := by
  intro hmem
  simpa using List.mem_takeWhile_imp hmem

theorem before_of_notMem (h : c ∉ text) : before c text = text := by
  rw [before, List.takeWhile_eq_self_iff]
  intro x hx
  exact decide_eq_true fun heq => h (heq ▸ hx)

theorem before_append_behind (h : c ∈ text) : before c text ++ c :: behind c text = text := by
  obtain ⟨a, b, rfl, ha⟩ := List.eq_append_cons_of_mem h
  have hpos : ∀ x ∈ a, decide (x ≠ c) = true := fun x hx => decide_eq_true fun heq => ha (heq ▸ hx)
  rw [before, behind, List.takeWhile_append_of_pos hpos, List.dropWhile_append_of_pos hpos]
  simp

/-! ## Strings after an edit -/

/-- The string of a line that was just read ends at its first NUL. -/
theorem hasStr_line (line : List Char) :
    HasStr (line ++ ['\x00']) 0 (before '\x00' line) := by
  by_cases h : '\x00' ∈ line
  · have hline := before_append_behind h
    rw [← hline, List.append_assoc, List.cons_append, hline]
    exact hasStr_of_append (notMem_before _ _) _
  · rw [before_of_notMem h]
    exact hasStr_of_append h []

/-- Nothing is found if the character is not there; otherwise the string can be split. -/
theorem strchr_cases (h : HasStr buf off text) (c : Char) :
    (c ∉ text ∧ strchr buf off c = none) ∨
    (c ∈ text ∧ strchr buf off c = some (off + (before c text).length)) := by
  by_cases hc : c ∈ text
  · rw [← before_append_behind hc] at h
    exact .inr ⟨hc, h.strchr_eq_some (notMem_before c text)⟩
  · exact .inl ⟨hc, h.strchr_eq_none hc⟩

/-- The comment is cut off (config.c:150-152). -/
theorem hasStr_comment (h : HasStr buf 0 text) :
    HasStr (cutComment buf) 0 (before '#' text) := by
  rw [cutComment]
  obtain ⟨hc, hs⟩ | ⟨hc, hs⟩ := strchr_cases h '#'
  · rw [hs, before_of_notMem hc]
    exact h
  · rw [hs]
    rw [← before_append_behind hc] at h
    exact h.cut_left

theorem strstrip_snd (h : HasStr buf off text) :
    (strstrip buf off).2 = off + (text.takeWhile isSpace).length := by
  rw [← h.skipSpaces_eq]
  unfold strstrip
  dsimp only
  split_ifs <;> rfl

/-- Behind the leading white space. -/
theorem hasStr_dropWhile (h : HasStr buf off text) :
    HasStr buf (off + (text.takeWhile isSpace).length) (text.dropWhile isSpace) := by
  rw [← List.takeWhile_append_dropWhile (p := isSpace) (l := text)] at h
  exact h.drop

/-- At most one character is left in front of which white space was skipped, or the white
    space behind the text is removed. -/
theorem strstrip_fst (h : HasStr buf off text) :
    ((text.dropWhile isSpace).length ≤ 1 ∧ (strstrip buf off).1 = buf) ∨
    (strstrip buf off).1 = trimBack (off + (text.takeWhile isSpace).length)
      (off + (text.takeWhile isSpace).length + (text.dropWhile isSpace).length) buf := by
  unfold strstrip
  dsimp only
  rw [h.skipSpaces_eq, (hasStr_dropWhile h).cstr_eq]
  split_ifs with hlen
  · exact .inl ⟨by omega, rfl⟩
  · exact .inr rfl

/-- One character that is not white space needs no stripping. -/
theorem strip_of_length_le (h : (text.dropWhile isSpace).length ≤ 1) :
    strip text = text.dropWhile isSpace := by
  rw [strip, List.rdropWhile_eq_self_iff]
  intro hne
  have hpos := List.length_pos_iff.mpr hne
  obtain ⟨x, hx⟩ := List.length_eq_one_iff.mp (show (text.dropWhile isSpace).length = 1 by omega)
  have hlast : (text.dropWhile isSpace).getLast hne = (text.dropWhile isSpace).head hne := by
    simp [hx]
  rw [hlast]
  simpa using List.head_dropWhile_not isSpace hne

/-- The leading white space stays in front of the stripped text. -/
theorem hasStr_strstrip (h : HasStr buf off text) :
    HasStr (strstrip buf off).1 off (text.takeWhile isSpace ++ strip text) := by
  have hsplit : HasStr buf off (text.takeWhile isSpace ++ text.dropWhile isSpace) := by
    rwa [List.takeWhile_append_dropWhile]
  obtain ⟨hlen, hbuf⟩ | hbuf := strstrip_fst h
  · rw [hbuf, strip_of_length_le hlen]
    exact hsplit
  · rw [hbuf]
    exact hsplit.trimBack

/-- The string that `strstrip` returns. -/
theorem hasStr_strip (h : HasStr buf off text) :
    HasStr (strstrip buf off).1 (strstrip buf off).2 (strip text) := by
  rw [strstrip_snd h]
  exact (hasStr_strstrip h).drop

theorem length_takeWhile_add_dropWhile (text : List Char) :
    (text.takeWhile isSpace).length + (text.dropWhile isSpace).length = text.length := by
  rw [← List.length_append, List.takeWhile_append_dropWhile]

/-- The bytes outside the string stay. -/
theorem strstrip_frame (h : HasStr buf off text) {i : ℕ} (hi : i < off ∨ off + text.length ≤ i) :
    (strstrip buf off).1[i]? = buf[i]? := by
  have hlen := length_takeWhile_add_dropWhile text
  obtain ⟨-, hbuf⟩ | hbuf := strstrip_fst h
  · rw [hbuf]
  · rw [hbuf]
    exact trimBack_frame (by omega)

/-- The stripped text lies in the text. -/
theorem length_strip_le (text : List Char) :
    (text.takeWhile isSpace).length + (strip text).length ≤ text.length := by
  have hlen := length_takeWhile_add_dropWhile text
  have hle := (List.rdropWhile_prefix isSpace (text.dropWhile isSpace)).length_le
  rw [strip]
  omega

/-- A stripped text that is blank is empty. -/
theorem all_isSpace_strip (text : List Char) :
    (strip text).all isSpace = true ↔ strip text = [] := by
  refine ⟨fun hall => ?_, fun hnil => by rw [hnil]; rfl⟩
  by_contra hne
  have hlast := List.rdropWhile_last_not isSpace (text.dropWhile isSpace) hne
  exact hlast (List.all_eq_true.mp hall _ (List.getLast_mem hne))

theorem empty_eq (h : HasStr buf off text) : empty buf off = text.all isSpace := by
  have hrest := hasStr_dropWhile h
  rw [empty, h.skipSpaces_eq, hrest.charAt_eq, Bool.eq_iff_iff, decide_eq_true_eq,
    List.all_eq_true, ← List.dropWhile_eq_nil_iff]
  cases hdrop : text.dropWhile isSpace with
  | nil => simp
  | cons x xs =>
    -- The first character that is left is no NUL.
    rw [hdrop] at hrest
    have hx : x ≠ '\x00' := fun heq => hrest.1 (heq ▸ List.mem_cons_self)
    simp [hx]

/-! ## What a line says -/

/-- A line that is neither blank nor an error. -/
inductive Statement
  /-- `[name]` -/
  | header (name : List Char)
  /-- `name = val` -/
  | assign (name val : List Char)
deriving DecidableEq

/-- The text of a line: no comment, and no white space around it. -/
def lineText (line : List Char) : List Char := strip (before '#' (before '\x00' line))

/-- What a line says; nothing, if it is blank. -/
def statement (line : List Char) : Except String (Option Statement) :=
  let t := lineText line
  if t.head? = some '[' then
    if ']' ∈ t then
      if (behind ']' t).all isSpace then .ok (some (.header (before ']' t).tail))
      else .error "left over characters at end of line"
    else .error "Header without ending ]"
  else if '=' ∈ t then .ok (some (.assign (strip (before '=' t)) (strip (behind '=' t))))
  else if t = [] then .ok none
  else .error "config file line not field nor header"

/-! ### Comments and white space -/

theorem strip_append {lead trail : List Char} (hlead : ∀ c ∈ lead, isSpace c = true)
    (htrail : ∀ c ∈ trail, isSpace c = true) (text : List Char) :
    strip (lead ++ text ++ trail) = strip text := by
  unfold strip
  rw [List.append_assoc, List.dropWhile_append_of_pos hlead]
  by_cases hall : ∀ c ∈ text, isSpace c = true
  · have hblank : ∀ c ∈ text ++ trail, isSpace c = true := fun c hc =>
      (List.mem_append.mp hc).elim (hall c) (htrail c)
    rw [List.dropWhile_eq_nil_iff.mpr hall, List.dropWhile_eq_nil_iff.mpr hblank]
  · have hne : text.dropWhile isSpace ≠ [] := fun hnil => hall (List.dropWhile_eq_nil_iff.mp hnil)
    rw [List.dropWhile_append, if_neg (by simpa using hne)]
    -- The white space at the end goes first.
    clear hall
    induction trail using List.reverseRecOn with
    | nil => rw [List.append_nil]
    | append_singleton trail c ih =>
      rw [← List.append_assoc, List.rdropWhile_concat_pos _ _ _ (htrail c (by simp))]
      exact ih fun x hx => htrail x (List.mem_append_left _ hx)

/-- White space around a line and a comment behind it change nothing. -/
theorem lineText_decorate {lead trail comment : List Char}
    (hlead : ∀ c ∈ lead, isSpace c = true) (htrail : ∀ c ∈ trail, isSpace c = true)
    (hcomment : comment = [] ∨ comment.head? = some '#') (line : List Char) :
    lineText (lead ++ line ++ trail ++ comment) = lineText line := by
  unfold lineText before
  rw [List.takeWhile_takeWhile, List.takeWhile_takeWhile]
  set p : Char → Bool := fun c => decide (decide (c ≠ '#') = true ∧ decide (c ≠ '\x00') = true)
    with hp
  have hspace : ∀ c, isSpace c = true → p c = true := by
    intro c hc
    have h1 : c ≠ '#' := fun heq => absurd (heq ▸ hc) (by decide)
    have h2 : c ≠ '\x00' := fun heq => absurd (heq ▸ hc) (by decide)
    simp [hp, h1, h2]
  have hnone : comment.takeWhile p = [] := by
    rcases hcomment with rfl | hhead
    · rfl
    · cases comment with
      | nil => rfl
      | cons x xs =>
        obtain rfl : x = '#' := by simpa using hhead
        rfl
  rw [List.append_assoc, List.append_assoc,
    List.takeWhile_append_of_pos fun c hc => hspace c (hlead c hc)]
  by_cases hall : ∀ c ∈ line, p c = true
  · rw [List.takeWhile_append_of_pos hall,
      List.takeWhile_append_of_pos fun c hc => hspace c (htrail c hc), hnone, List.append_nil,
      List.takeWhile_eq_self_iff.mpr hall, ← List.append_assoc, strip_append hlead htrail]
  · have hcut : (line.takeWhile p).length ≠ line.length := fun hlen =>
      hall (List.takeWhile_eq_self_iff.mp ((List.takeWhile_prefix p).eq_of_length hlen))
    rw [List.takeWhile_append, if_neg hcut]
    simpa using @strip_append lead [] hlead (by simp) (line.takeWhile p)

/-- What a statement does to the store. -/
def execute (st : Parser) : Option Statement → Parser
  | none => { st with lineno := st.lineno + 1 }
  | some (.header name) =>
    let (config, hdr) := newHeader st.config st.hdr name
    { config, hdr := some hdr, lineno := st.lineno + 1 }
  | some (.assign name val) =>
    let (config, hdr) := currentHeader st
    { config := addOpt config hdr name val, hdr := some hdr, lineno := st.lineno + 1 }

/-- A line stops the program if it says nothing that is understood. -/
def executeLine (st : Parser) : Except String (Option Statement) → Except ParseError Parser
  | .error msg => .error { line := st.lineno, msg }
  | .ok s => .ok (execute st s)

/-- The edited line: its leading white space and its text, and the text alone at `s`. -/
theorem hasStr_editLine (line : List Char) :
    ∃ lead, (∀ c ∈ lead, isSpace c = true) ∧ (editLine line).2 = lead.length ∧
      HasStr (editLine line).1 0 (lead ++ lineText line) := by
  have h := hasStr_comment (hasStr_line line)
  refine ⟨_, fun c hc => List.mem_takeWhile_imp hc, ?_, hasStr_strstrip h⟩
  rw [editLine, strstrip_snd h, Nat.zero_add]

/-- The name and the value of an assignment, as they are copied (config.c:162-167). -/
theorem cstr_assign {buf a b : List Char} {s : ℕ} (h : HasStr buf s (a ++ '=' :: b)) :
    let cut := buf.set (s + a.length) '\x00'
    let name := strstrip cut s
    let val := strstrip name.1 (s + a.length + 1)
    cstr val.1 name.2 = strip a ∧ cstr val.1 val.2 = strip b := by
  intro cut name val
  have hname : HasStr name.1 name.2 (strip a) := hasStr_strip h.cut_left
  -- Stripping the name does not touch the value behind the NUL, and the other way round.
  have hval : HasStr name.1 (s + a.length + 1) b :=
    h.cut_right.congr fun i hi _ => strstrip_frame h.cut_left (.inr (by omega))
  have hname' : HasStr val.1 name.2 (strip a) := by
    refine hname.congr fun i _ hi => strstrip_frame hval (.inl ?_)
    have hsnd : name.2 = s + _ := strstrip_snd h.cut_left
    have hlen := length_strip_le a
    omega
  exact ⟨hname'.cstr_eq, (hasStr_strip hval).cstr_eq⟩

/-- The rest of the line that `nothing` looks at (config.c:158). -/
theorem hasStr_behind {s : ℕ} (h : HasStr buf s text) (hc : c ∈ text) :
    HasStr buf (s + (before c text).length + 1) (behind c text) := by
  have hsplit : HasStr buf (s + (before c text ++ [c]).length) (behind c text) := by
    apply HasStr.drop
    rwa [List.append_assoc, List.singleton_append, before_append_behind hc]
  rwa [List.length_append, List.length_singleton, ← Nat.add_assoc] at hsplit

/-- The name between the brackets, as it is copied (config.c:159-160). -/
theorem cstr_header {s : ℕ} (h : HasStr buf s text) (hopen : text.head? = some '[')
    (hclose : ']' ∈ text) :
    cstr (buf.set (s + (before ']' text).length) '\x00') (s + 1) = (before ']' text).tail := by
  have hcons : before ']' text = ['['] ++ (before ']' text).tail := by
    cases text with
    | nil => cases hopen
    | cons x xs =>
      obtain rfl : x = '[' := by simpa using hopen
      rfl
  rw [← before_append_behind hclose] at h
  have hcut := h.cut_left
  generalize buf.set (s + (before ']' text).length) '\x00' = cut at hcut ⊢
  rw [hcons] at hcut
  exact hcut.drop.cstr_eq

/-- **Lines.** A line is executed as what it says, for every text of the line. -/
theorem parseLine_eq (st : Parser) (line : List Char) :
    parseLine st line = executeLine st (statement line) := by
  obtain ⟨lead, hlead, hs, hline⟩ := hasStr_editLine line
  unfold parseLine statement
  generalize editLine line = edited at hs hline
  obtain ⟨buf, s⟩ := edited
  obtain rfl : s = lead.length := hs
  replace hline : HasStr buf 0 (lead ++ lineText line) := hline
  have htext : HasStr buf lead.length (lineText line) := by
    simpa using hline.drop
  have hblank : (lineText line).all isSpace = true ↔ lineText line = [] := all_isSpace_strip _
  generalize lineText line = t at hline htext hblank
  dsimp only
  rw [htext.charAt_eq]
  have hhead : t.headD '\x00' = '[' ↔ t.head? = some '[' := by
    cases t <;> simp
  by_cases hopen : t.head? = some '['
  · rw [if_pos (hhead.mpr hopen), if_pos hopen]
    obtain ⟨hclose, hp⟩ | ⟨hclose, hp⟩ := strchr_cases htext ']'
    · rw [hp, if_neg hclose]
      rfl
    · rw [hp, if_pos hclose]
      dsimp only
      rw [empty_eq (hasStr_behind htext hclose), cstr_header htext hopen hclose]
      cases (behind ']' t).all isSpace <;> rfl
  · rw [if_neg fun h => hopen (hhead.mp h), if_neg hopen]
    -- The white space in front of the text holds no `=`.
    have hnotMem : '=' ∉ lead := fun hmem => absurd (hlead _ hmem) (by decide)
    by_cases hassign : '=' ∈ t
    · have hsplit := htext
      rw [← before_append_behind hassign] at hline hsplit
      have hval : strchr buf 0 '=' = some (lead.length + (before '=' t).length) := by
        rw [← List.append_assoc] at hline
        have h := hline.strchr_eq_some (by
          rw [List.mem_append, not_or]
          exact ⟨hnotMem, notMem_before '=' t⟩)
        rw [h, List.length_append, Nat.zero_add]
      obtain ⟨hname, hvalue⟩ := cstr_assign hsplit
      rw [hval, if_pos hassign]
      dsimp only
      rw [hname, hvalue]
      rfl
    · have hval : strchr buf 0 '=' = none := hline.strchr_eq_none (by
        rw [List.mem_append, not_or]
        exact ⟨hnotMem, hassign⟩)
      rw [hval, if_neg hassign]
      dsimp only
      rw [empty_eq htext]
      by_cases hnil : t = []
      · rw [hblank.mpr hnil, if_pos hnil]
        rfl
      · rw [eq_false_of_ne_true (mt hblank.mp hnil), if_neg hnil]
        rfl

end Mcelog.Config
