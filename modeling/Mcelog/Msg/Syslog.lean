import Mathlib.Data.List.TakeWhile
import Mcelog.Common.Lines
import Mcelog.Common.Run

/-!
# Line buffering for syslog

Model of `vlinesyslog`, `Wprintf` and `Gprintf` (msg.c:109-157). Decoded text
reaches syslog in fragments; `vlinesyslog` collects them in a static buffer of
200 bytes and hands every complete line to `syslog()`.

A C string is the list of its characters before the terminating NUL, so the
buffer is such a list of at most 199 characters. A formatted text is the list
of characters that `vsnprintf` produces.

Results:

* `losesNoLine_iff`: for every sequence of texts, the lines handed to syslog
  are those of the concatenated texts exactly if no text that overflows the
  buffer is followed by a newline that was cut off or comes later.
* `full_buffer_stuck`, `long_line_blocks_syslog`: a line of 199 characters is
  never sent, and after it nothing is sent any more.
* `printf_syslog_mode`: in syslog mode `Wprintf` and `Gprintf` send what
  `vlinesyslog` sends.
-/

namespace Mcelog.Msg

open Mcelog.Common

/-! ## Model -/

/-- `sizeof(line)` (msg.c:112). -/
def lineSize : ℕ := 200

/-- `vsnprintf(line + lend, sizeof(line)-lend, fmt, ap)` with
    `lend = strlen(line)`: appends the text as far as it fits (msg.c:114-115). -/
def appendText (line text : List Char) : List Char :=
  line ++ text.take (lineSize - line.length - 1)

/-- The `while (line[n = strcspn(line, "\n")] != 0)` loop (msg.c:116-120): the
    lines handed to `syslog()` and what `memmove` leaves in the buffer. -/
def sendLines (line : List Char) : List (List Char) × List Char :=
  let n := (line.takeWhile (· ≠ '\n')).length
  if n < line.length then
    let sent := sendLines (line.drop (n + 1))
    (line.take n :: sent.1, sent.2)
  else ([], line)
termination_by line.length
decreasing_by simp only [List.length_drop]; omega

/-- `vlinesyslog` (msg.c:110-122) on the static buffer `line`: the buffer
    afterwards and the lines handed to `syslog()`. -/
def vlinesyslog (line text : List Char) : List Char × List (List Char) :=
  let r := sendLines (appendText line text)
  (r.2, r.1)

/-- The bits of `syslog_opt` that `Wprintf` and `Gprintf` test, and whether a
    log file is open (`output_fh`). -/
structure MsgOpts where
  syslogLog : Bool
  syslogRemark : Bool
  outputFh : Bool
  deriving DecidableEq, Repr

/-- One call of `Wprintf` or `Gprintf` with the text it formats. -/
inductive PrintCall
  | wprintf (text : List Char)
  | gprintf (text : List Char)
  deriving DecidableEq, Repr

def PrintCall.text : PrintCall → List Char
  | wprintf t => t
  | gprintf t => t

/-- The buffer of `vlinesyslog` and what was printed to the log file (or to
    `stdout`). -/
structure MsgState where
  line : List Char
  fh : List Char
  deriving DecidableEq, Repr

/-- `Wprintf` (msg.c:125-141) and `Gprintf` (msg.c:144-157): the state afterwards
    and the lines handed to `syslog()`. -/
def printf (o : MsgOpts) (s : MsgState) (call : PrintCall) : MsgState × List (List Char) :=
  let toSyslog := match call with
    | .wprintf _ => o.syslogLog
    | .gprintf _ => o.syslogRemark || o.syslogLog
  let toFile := !o.syslogLog || o.outputFh
  let r := if toSyslog then vlinesyslog s.line call.text else (s.line, [])
  ({ line := r.1, fh := if toFile then s.fh ++ call.text else s.fh }, r.2)

/-! ## The loop sends the lines of the buffer -/

theorem forall_ne_newline {s : List Char} (hs : '\n' ∉ s) : ∀ c ∈ s, (c ≠ '\n' : Bool) = true := by
  intro c hc
  rw [decide_eq_true_eq]
  rintro rfl
  exact hs hc

theorem sendLines_eq (line : List Char) : sendLines line = (lines '\n' line, rest '\n' line) := by
  induction line using lines_induction '\n' with
  | hrest s hs =>
    rw [sendLines, List.takeWhile_eq_self_iff.mpr (forall_ne_newline hs), lines_of_notMem hs,
      rest_of_notMem hs]
    exact if_neg (lt_irrefl _)
  | hline l s hl ih =>
    have htake : (l ++ '\n' :: s).takeWhile (· ≠ '\n') = l := by
      rw [List.takeWhile_append_of_pos (forall_ne_newline hl)]
      simp
    rw [sendLines, htake, lines_line_append hl, rest_line_append hl]
    simp [ih]

theorem vlinesyslog_eq (line text : List Char) :
    vlinesyslog line text =
      (rest '\n' (appendText line text), lines '\n' (appendText line text)) := by
  simp [vlinesyslog, sendLines_eq]

theorem appendText_fits {line text : List Char} (h : line.length + text.length < lineSize) :
    appendText line text = line ++ text := by
  rw [appendText, List.take_of_length_le (by omega)]

theorem length_appendText_lt {line : List Char} (h : line.length < lineSize) (text : List Char) :
    (appendText line text).length < lineSize := by
  simp only [appendText, List.length_append, List.length_take]
  omega

/-! ## Runs -/

/-- The lines handed to `syslog()` for the texts `ts`, starting with `line` in
    the buffer. -/
def sent (line : List Char) (ts : List (List Char)) : List (List Char) :=
  (runOut vlinesyslog line ts).flatten

/-- The buffer after the texts `ts`. -/
def buffer (line : List Char) (ts : List (List Char)) : List Char := runState vlinesyslog line ts

@[simp] theorem sent_nil (line : List Char) : sent line [] = [] := rfl

@[simp] theorem sent_cons (line t : List Char) (ts : List (List Char)) :
    sent line (t :: ts) =
      lines '\n' (appendText line t) ++ sent (rest '\n' (appendText line t)) ts := by
  simp [sent, vlinesyslog_eq]

@[simp] theorem buffer_cons (line t : List Char) (ts : List (List Char)) :
    buffer line (t :: ts) = buffer (rest '\n' (appendText line t)) ts := by
  simp [buffer, vlinesyslog_eq]

theorem sent_append (line : List Char) (ts us : List (List Char)) :
    sent line (ts ++ us) = sent line ts ++ sent (buffer line ts) us := by
  simp [sent, buffer, runOut_append]

theorem buffer_append (line : List Char) (ts us : List (List Char)) :
    buffer line (ts ++ us) = buffer (buffer line ts) us :=
  runState_append line ts us

/-- The buffer always holds an unfinished line that fits. -/
theorem buffer_invariant {line : List Char} (hn : '\n' ∉ line) (hl : line.length < lineSize)
    (ts : List (List Char)) : '\n' ∉ buffer line ts ∧ (buffer line ts).length < lineSize := by
  refine runState_invariant (I := fun b : List Char => '\n' ∉ b ∧ b.length < lineSize) ?_
    ⟨hn, hl⟩ ts
  rintro b t ⟨-, hb⟩
  rw [vlinesyslog_eq]
  exact ⟨notMem_rest _, lt_of_le_of_lt (length_rest_le _) (length_appendText_lt hb t)⟩

/-- A sent line together with its newline fitted in the buffer. -/
theorem length_of_mem_sent {line : List Char} (hl : line.length < lineSize) {l : List Char} :
    ∀ {ts : List (List Char)}, l ∈ sent line ts → l.length + 1 < lineSize := by
  intro ts
  induction ts generalizing line with
  | nil => intro h; simp at h
  | cons t ts ih =>
    intro h
    have hlen := length_appendText_lt hl t
    rw [sent_cons, List.mem_append] at h
    rcases h with h | h
    · have := length_lt_of_mem_lines h
      omega
    · exact ih (lt_of_le_of_lt (length_rest_le _) hlen) h

/-! ## When no line is lost -/

/-- No line is lost: the lines handed to `syslog()` are the newline-terminated
    lines of the concatenated texts, each cut to what the buffer holds, and
    after every text that ends in a newline the buffer is empty. -/
def LosesNoLine (ts : List (List Char)) : Prop :=
  sent [] ts = (lines '\n' ts.flatten).map (List.take (lineSize - 1)) ∧
  ∀ before t, before ++ [t] <+: ts → t.getLast? = some '\n' → buffer [] (before ++ [t]) = []

/-- The text `t`, printed after `before`, does not fit behind the unfinished
    line of `before`. -/
def Overflows (before : List (List Char)) (t : List Char) : Prop :=
  lineSize ≤ (rest '\n' before.flatten).length + t.length

/-- The part of an overflowing text that `vsnprintf` cuts off. -/
def cutOff (before : List (List Char)) (t : List Char) : List Char :=
  t.drop (lineSize - (rest '\n' before.flatten).length - 1)

/-- No newline is cut off from an overflowing text or follows it. -/
def NoNewlineAfterOverflow (ts : List (List Char)) : Prop :=
  ∀ before t after, ts = before ++ t :: after → Overflows before t →
    '\n' ∉ cutOff before t ++ after.flatten

/-- As long as every text fits, the buffer is the unfinished line of the texts
    and every line has been sent. -/
theorem run_of_fits : ∀ (ts : List (List Char)),
    (∀ before t after, ts = before ++ t :: after → ¬ Overflows before t) →
    sent [] ts = lines '\n' ts.flatten ∧ buffer [] ts = rest '\n' ts.flatten := by
  intro ts
  induction ts using List.reverseRecOn with
  | nil => intro _; exact ⟨rfl, rfl⟩
  | append_singleton ts t ih =>
    intro h
    obtain ⟨hsent, hbuf⟩ := ih fun before t' after he =>
      h before t' (after ++ [t]) (by rw [he]; simp)
    have hfit := h ts t [] rfl
    rw [Overflows, not_le] at hfit
    have happ := appendText_fits hfit
    constructor
    · rw [sent_append, hsent, hbuf, sent_cons, sent_nil, List.append_nil, happ,
        List.flatten_append, List.flatten_singleton, ← lines_append]
    · rw [buffer_append, hbuf, buffer_cons, happ, List.flatten_append, List.flatten_singleton,
        ← rest_append]
      rfl

/-- Texts without newlines send nothing. -/
theorem sent_of_notMem {line : List Char} (hn : '\n' ∉ line) :
    ∀ {ts : List (List Char)}, '\n' ∉ ts.flatten → sent line ts = [] := by
  intro ts
  induction ts generalizing line with
  | nil => intro _; rfl
  | cons t ts ih =>
    intro h
    rw [List.flatten_cons, List.mem_append, not_or] at h
    have happ : '\n' ∉ appendText line t := by
      rw [appendText, List.mem_append, not_or]
      exact ⟨hn, fun h' => h.1 (List.mem_of_mem_take h')⟩
    rw [sent_cons, lines_of_notMem happ, rest_of_notMem happ, List.nil_append]
    exact ih happ h.2

/-- After a text that ends in a newline the buffer is empty, as long as every
    text fits. -/
theorem buffer_nil_of_fits {ts : List (List Char)}
    (hfits : ∀ before t after, ts = before ++ t :: after → ¬ Overflows before t)
    {before : List (List Char)} {t : List Char} (hpre : before ++ [t] <+: ts)
    (hlast : t.getLast? = some '\n') : buffer [] (before ++ [t]) = [] := by
  obtain ⟨u, rfl⟩ := hpre
  have hrun := run_of_fits (before ++ [t]) fun x y z he => hfits x y (z ++ u) (by rw [he]; simp)
  rw [hrun.2, rest_eq_nil_of_getLast?]
  rw [List.flatten_append, List.flatten_singleton,
    List.getLast?_append_of_ne_nil _ (by rintro rfl; simp at hlast), hlast]

/-- Sent lines are shorter than the cut. -/
theorem length_of_mem_sent_nil {ts : List (List Char)} {l : List Char} (h : l ∈ sent [] ts) :
    l.length < lineSize - 1 := by
  have := length_of_mem_sent (by decide) h
  omega

theorem sent_eq_map_take {ts : List (List Char)} (h : sent [] ts = lines '\n' ts.flatten) :
    sent [] ts = (lines '\n' ts.flatten).map (List.take (lineSize - 1)) := by
  rw [← h]
  conv_lhs => rw [← List.map_id (sent [] ts)]
  apply List.map_congr_left
  intro l hl
  rw [List.take_of_length_le (length_of_mem_sent_nil hl).le, id]

/-- What one text sends, counted in characters: at most the lines it completes,
    and less if a newline is cut off from it or follows the cut. -/
theorem total_sent_cons {line t : List Char} {ts : List (List Char)} (hn : '\n' ∉ line)
    (hts : ∀ line', '\n' ∉ line' →
      total (sent line' ts) ≤ line'.length + total (lines '\n' ts.flatten)) :
    total (sent line (t :: ts)) ≤ line.length + total (lines '\n' (t ++ ts.flatten)) ∧
    (t.drop (lineSize - line.length - 1) ≠ [] →
      '\n' ∈ t.drop (lineSize - line.length - 1) ++ ts.flatten →
      total (sent line (t :: ts)) < line.length + total (lines '\n' (t ++ ts.flatten))) := by
  obtain ⟨kept, hkept⟩ : ∃ kept, kept = t.take (lineSize - line.length - 1) := ⟨_, rfl⟩
  obtain ⟨cut, hcut⟩ : ∃ cut, cut = t.drop (lineSize - line.length - 1) := ⟨_, rfl⟩
  have ht : t = kept ++ cut := by rw [hkept, hcut, List.take_append_drop]
  rw [sent_cons, total_append, appendText, ← hkept, ← hcut]
  have hbuf := total_lines '\n' (line ++ kept)
  rw [List.length_append] at hbuf
  by_cases hlater : '\n' ∈ ts.flatten
  · -- everything of `t` belongs to a line of the texts, the cut part is missing
    have := hts _ (notMem_rest (line ++ kept))
    rw [total_lines_append_of_mem t hlater, ht, List.length_append]
    refine ⟨by omega, fun hne _ => ?_⟩
    have := List.length_pos_of_ne_nil hne
    omega
  · have hcutMem : ('\n' ∈ cut ++ ts.flatten) ↔ '\n' ∈ cut := by simp [hlater]
    have hk := total_lines '\n' kept
    have hline : total (lines '\n' (line ++ kept)) ≤ line.length + total (lines '\n' kept) := by
      by_cases hkm : '\n' ∈ kept
      · exact (total_lines_append_of_mem line hkm).le
      · rw [lines_of_notMem (by simp [hn, hkm])]
        simp
    rw [sent_of_notMem (notMem_rest _) hlater, total_lines_append_of_notMem t hlater, ht, hcutMem]
    by_cases hc : '\n' ∈ cut
    · rw [total_lines_append_of_mem kept hc]
      have := total_lines_pos hc
      simp only [total_nil]
      exact ⟨by omega, fun _ _ => by omega⟩
    · rw [total_lines_append_of_notMem kept hc]
      simp only [total_nil]
      exact ⟨by omega, fun _ h' => absurd h' hc⟩

/-- What is sent is never more than the lines of the texts behind the
    unfinished line in the buffer. -/
theorem total_sent_le :
    ∀ (ts : List (List Char)) (line : List Char), '\n' ∉ line →
      total (sent line ts) ≤ line.length + total (lines '\n' ts.flatten) := by
  intro ts
  induction ts with
  | nil => intro line _; simp
  | cons t ts ih => exact fun line hn => (total_sent_cons hn ih).1

/-- Sent lines are shorter than the cut, so lines that agree with them up to
    the cut agree. -/
theorem sent_eq_of_eq_map_take {ts ls : List (List Char)}
    (h : sent [] ts = ls.map (List.take (lineSize - 1))) : sent [] ts = ls := by
  rw [h]
  conv_rhs => rw [← List.map_id ls]
  apply List.map_congr_left
  intro l hl
  have := length_of_mem_sent_nil (h ▸ List.mem_map_of_mem hl)
  rw [List.length_take] at this
  rw [List.take_of_length_le (by omega), id]

/-- Every run has a first overflowing text, or none. -/
theorem exists_first_overflow (ts : List (List Char)) :
    (∀ before t after, ts = before ++ t :: after → ¬ Overflows before t) ∨
    ∃ before t after, ts = before ++ t :: after ∧ Overflows before t ∧
      ∀ before' t' after', before = before' ++ t' :: after' → ¬ Overflows before' t' := by
  induction ts using List.reverseRecOn with
  | nil => left; intro before t after h; simp at h
  | append_singleton ts u ih =>
    rcases ih with ih | ⟨before, t, after, rfl, ho, hfirst⟩
    · by_cases hu : Overflows ts u
      · exact Or.inr ⟨ts, u, [], rfl, hu, ih⟩
      · left
        intro before t after h
        rcases List.eq_nil_or_concat after with rfl | ⟨after', v, rfl⟩
        · obtain ⟨rfl, hut⟩ := List.append_inj' h rfl
          cases hut
          exact hu
        · rw [List.concat_eq_append, ← List.cons_append, ← List.append_assoc] at h
          exact ih before t after' (List.append_inj' h rfl).1
    · exact Or.inr ⟨before, t, after ++ [u], by simp, ho, hfirst⟩

/-- A text at or after the first overflow, or one that was printed before it. -/
theorem prefix_cases {before : List (List Char)} {t : List Char} {after before' : List (List Char)}
    {t' : List Char} (h : before' ++ [t'] <+: before ++ t :: after) :
    before' ++ [t'] <+: before ∨ t' = t ∨ t' ∈ after := by
  obtain ⟨u, hu⟩ := h
  rcases List.append_eq_append_iff.mp hu with ⟨a, rfl, -⟩ | ⟨a, ha, hb⟩
  · exact Or.inl (List.prefix_append _ _)
  · cases a with
    | nil => exact Or.inl (by rw [ha, List.append_nil])
    | cons x a =>
      obtain ⟨rfl, rfl⟩ := List.cons.inj hb
      have hmem : t' ∈ t :: a := by
        have := congrArg List.getLast? ha
        rw [List.getLast?_append_of_ne_nil _ (List.cons_ne_nil _ _)] at this
        exact List.mem_of_getLast? (by simpa using this.symm)
      rcases List.mem_cons.mp hmem with h | h
      · exact Or.inr (Or.inl h)
      · exact Or.inr (Or.inr (List.mem_append_left _ h))

/-- The texts after the first overflow: without a further newline nothing is
    lost, with one a line is missing or cut short. -/
theorem losesNoLine_of_overflow {before : List (List Char)} {t : List Char}
    {after : List (List Char)} (ho : Overflows before t)
    (hfirst : ∀ before' t' after', before = before' ++ t' :: after' → ¬ Overflows before' t') :
    LosesNoLine (before ++ t :: after) ↔ '\n' ∉ cutOff before t ++ after.flatten := by
  obtain ⟨hsent, hbuf⟩ := run_of_fits before hfirst
  have hcut : cutOff before t ≠ [] := by
    have hnil : ([] : List Char).length < lineSize := by decide
    have := (buffer_invariant List.not_mem_nil hnil before).2
    rw [hbuf] at this
    rw [Overflows] at ho
    apply List.ne_nil_of_length_pos
    rw [cutOff, List.length_drop]
    omega
  constructor
  · rintro ⟨hlines, -⟩ hnl
    have heq := congrArg total (sent_eq_of_eq_map_take hlines)
    have hmem : '\n' ∈ t ++ after.flatten := by
      rw [List.mem_append] at hnl ⊢
      exact hnl.imp_left List.mem_of_mem_drop
    have hlt := (total_sent_cons (notMem_rest before.flatten) (total_sent_le after)).2 hcut hnl
    rw [sent_append, total_append, hsent, hbuf, List.flatten_append, List.flatten_cons,
      lines_append,
      total_append, total_lines_append_of_mem _ hmem] at heq
    omega
  · intro hnl
    have hafter : '\n' ∉ after.flatten := fun h => hnl (List.mem_append_right _ h)
    have hall : sent [] (before ++ t :: after) = lines '\n' (before ++ t :: after).flatten := by
      have hsplit : rest '\n' before.flatten ++ (t ++ after.flatten) =
          appendText (rest '\n' before.flatten) t ++ (cutOff before t ++ after.flatten) := by
        rw [appendText, cutOff, List.append_assoc, ← List.append_assoc (List.take _ _),
          List.take_append_drop]
      have hnone : '\n' ∉ rest '\n' (appendText (rest '\n' before.flatten) t) ++
          (cutOff before t ++ after.flatten) := by
        rw [List.mem_append, not_or]
        exact ⟨notMem_rest _, hnl⟩
      rw [sent_append, hsent, hbuf, sent_cons, sent_of_notMem (notMem_rest _) hafter,
        List.append_nil, List.flatten_append, List.flatten_cons, lines_append, hsplit,
        lines_append (appendText _ _), lines_of_notMem hnone, List.append_nil]
    refine ⟨sent_eq_map_take hall, fun before' t' hpre hlast => ?_⟩
    rcases prefix_cases hpre with hp | rfl | hmem
    · exact buffer_nil_of_fits hfirst hp hlast
    · -- the newline at the end of an overflowing text is cut off
      rw [cutOff, ne_eq, List.drop_eq_nil_iff, not_le] at hcut
      have := List.mem_of_getLast? ((List.getLast?_drop (l := t')).trans
        ((if_neg (not_le.mpr hcut)).trans hlast))
      exact absurd (List.mem_append_left _ this) hnl
    · exact absurd (List.mem_flatten.mpr ⟨t', hmem, List.mem_of_getLast? hlast⟩) hafter

/-- **Syslog line buffering, exactly when it loses no line.** For every
    sequence of texts, the lines handed to `syslog()` are the lines of the
    concatenated texts (and the buffer is empty after every text that ends in a
    newline) if and only if no newline is cut off from an overflowing text or
    follows it. -/
theorem losesNoLine_iff (ts : List (List Char)) : LosesNoLine ts ↔ NoNewlineAfterOverflow ts := by
  rcases exists_first_overflow ts with hfits | ⟨before, t, after, rfl, ho, hfirst⟩
  · refine ⟨fun _ before t after he ho => absurd ho (hfits before t after he), fun _ => ?_⟩
    exact ⟨sent_eq_map_take (run_of_fits ts hfits).1,
      fun before t hpre hlast => buffer_nil_of_fits hfits hpre hlast⟩
  · rw [losesNoLine_of_overflow ho hfirst]
    refine ⟨fun hnl before' t' after' he ho' => ?_, fun h => h before t after rfl ho⟩
    -- an overflow is the first one or comes after it
    rcases List.append_eq_append_iff.mp he with ⟨a, ha, hb⟩ | ⟨a, ha, hb⟩
    · cases a with
      | nil =>
        obtain ⟨rfl, rfl⟩ := List.cons.inj hb
        rwa [ha, List.append_nil]
      | cons x a =>
        obtain ⟨rfl, rfl⟩ := List.cons.inj (hb.trans (List.cons_append ..))
        intro hmem
        apply hnl
        rw [List.flatten_append, List.flatten_cons]
        rcases List.mem_append.mp hmem with hm | hm
        · simp [List.mem_of_mem_drop hm]
        · simp [hm]
    · cases a with
      | nil =>
        obtain ⟨rfl, rfl⟩ := List.cons.inj hb
        rwa [ha, List.append_nil] at hnl
      | cons x a =>
        obtain ⟨rfl, -⟩ := List.cons.inj hb
        exact absurd ho' (hfirst before' t' a ha)

/-- **A full buffer stays full.** Once 199 characters without a newline are in
    the buffer, no text is appended and no line is sent any more. -/
theorem full_buffer_stuck {line : List Char} (hlen : line.length = lineSize - 1)
    (hn : '\n' ∉ line) (ts : List (List Char)) : sent line ts = [] ∧ buffer line ts = line := by
  have happ : ∀ t, appendText line t = line := by
    intro t
    rw [appendText, hlen, show lineSize - (lineSize - 1) - 1 = 0 from rfl, List.take_zero,
      List.append_nil]
  induction ts with
  | nil => exact ⟨rfl, rfl⟩
  | cons t ts ih =>
    rw [sent_cons, buffer_cons, happ, lines_of_notMem hn, rest_of_notMem hn, List.nil_append]
    exact ih

/-- A decoded line of 199 characters, without its newline. -/
def longLine : List Char := List.replicate (lineSize - 1) 'x'

theorem notMem_longLine : '\n' ∉ longLine := by
  rw [longLine, List.mem_replicate]
  exact fun h => absurd h.2 (by decide)

theorem length_longLine : longLine.length = lineSize - 1 := List.length_replicate

/-- The long line with its newline, and the next line. -/
def longLineTexts : List (List Char) := [longLine ++ ['\n'], "STATUS 0\n".toList]

/-- **A long line blocks syslog.** The line of 199 characters is not sent, and
    neither is the line after it. -/
theorem long_line_blocks_syslog : sent [] longLineTexts = [] ∧ ¬ LosesNoLine longLineTexts := by
  have happ : appendText [] (longLine ++ ['\n']) = longLine := by
    rw [appendText, List.nil_append, List.length_nil, Nat.sub_zero, ← length_longLine,
      List.take_left]
  have hsent : sent [] longLineTexts = [] := by
    rw [longLineTexts, sent_cons, happ, lines_of_notMem notMem_longLine,
      rest_of_notMem notMem_longLine, List.nil_append]
    exact (full_buffer_stuck length_longLine notMem_longLine _).1
  refine ⟨hsent, fun h => ?_⟩
  have := h.1
  rw [hsent, eq_comm, List.map_eq_nil_iff, lines_eq_nil_iff] at this
  exact this (by simp [longLineTexts])

/-! ## `Wprintf` and `Gprintf` -/

/-- In syslog mode `Wprintf` and `Gprintf` send what `vlinesyslog` sends for
    their texts. -/
theorem printf_syslog_mode {o : MsgOpts} (ho : o.syslogLog = true) :
    ∀ (calls : List PrintCall) (s : MsgState),
      (runOut (printf o) s calls).flatten = sent s.line (calls.map PrintCall.text) := by
  intro calls
  induction calls with
  | nil => intro s; rfl
  | cons call calls ih =>
    intro s
    have hstep : (printf o s call).2 = (vlinesyslog s.line call.text).2 ∧
        (printf o s call).1.line = (vlinesyslog s.line call.text).1 := by
      cases call <;> simp [printf, ho]
    rw [runOut_cons, List.flatten_cons, ih, hstep.1, hstep.2, List.map_cons]
    rfl

end Mcelog.Msg
