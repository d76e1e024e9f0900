import Mcelog.Ascii.Cursor

/-!
# The loop over tokens ends

Each turn of the loop of `decodefatal` goes on in its line, or the next one reads another line,
so that the characters that are left get fewer.

* `Visited.within`: the loop never stands behind the NUL of its line.
* `decoding_stays_inside_iff`: it ends and stays inside its lines, unless the number of a
  `TIME` token ends so far away that the `int` for its place gets negative.
* `staysInside_of_short`, `decodefatal_of_short`: on lines shorter than 2^31 it always does,
  and it prints what `decodefatal` of the model prints, which has places without a bound.
-/

namespace Mcelog.Ascii

open Mcelog.Common Mcelog.Machine

/-- What a turn at `r` leaves behind: the loop goes on further on in the same line, but not
    behind its NUL, or it reads another line. -/
structure Moves (r : Reading) (c' : Cursor) : Prop where
  same : c'.line = r.line ∧ c'.input = r.input
  forward : 0 < c'.next → r.place < c'.s + c'.next.toNat
  within : 0 < c'.next → c'.s + c'.next.toNat ≤ c'.line.length

/-- The loop ends, no turn reads in front of the line, and each of them moves on. -/
structure StaysInside (env : AsciiEnv) (text : List Char) : Prop where
  ends : ∃ c, Visited env text c ∧ c.reading = none
  moves : ∀ c r, Visited env text c → c.reading = some r →
    ∃ c', bodyOf env c r = some c' ∧ Moves r c'

section

variable {env : AsciiEnv} {text : List Char} {c c' : Cursor} {r : Reading}

/-! ## One turn -/

/-- Where a turn starts: in the line of the turn before, or in the next one. -/
theorem reading_cases (h : c.reading = some r) :
    (0 < c.next ∧ r = ⟨c.line, c.s + c.next.toNat, c.input⟩) ∨
      (¬ 0 < c.next ∧ ∃ line input, c.input = line :: input ∧ r = ⟨line, 0, input⟩) := by
  unfold Cursor.reading at h
  split_ifs at h with hpos
  · exact Or.inl ⟨hpos, (Option.some.inj h).symm⟩
  · cases hinput : c.input with
    | nil =>
      rw [hinput] at h
      cases h
    | cons line input =>
      rw [hinput] at h
      exact Or.inr ⟨hpos, line, input, rfl, (Option.some.inj h).symm⟩

theorem bodyOf_inv (h : bodyOf env c r = some c') :
    c'.line = r.line ∧ c'.input = r.input ∧ c'.s = placeAfter env c.state.record r ∧
      nextAfter env c.state.record r = some c'.next := by
  obtain ⟨next, hnext, rfl⟩ := Option.map_eq_some_iff.mp h
  exact ⟨rfl, rfl, rfl, hnext⟩

/-- **A turn moves on.** -/
theorem bodyOf_moves (hplace : r.place ≤ r.line.length) (h : bodyOf env c r = some c') :
    Moves r c' := by
  obtain ⟨hline, hinput, hs, hnext⟩ := bodyOf_inv h
  obtain ⟨hge, -⟩ := placeAfter_ge env c.state.record hplace
  have hle := nextAfter_le hplace hnext
  rw [← hs] at hge hle
  refine ⟨⟨hline, hinput⟩, ?_, ?_⟩
  · intro hpos
    omega
  · intro hpos
    rw [hline]
    omega

/-- The place of a turn is in its line, if the loop stands inside its line. -/
theorem place_le_of_reading (hwithin : 0 < c.next → c.s + c.next.toNat ≤ c.line.length)
    (h : c.reading = some r) : r.place ≤ r.line.length := by
  obtain ⟨hpos, rfl⟩ | ⟨-, line, input, -, rfl⟩ := reading_cases h
  · exact hwithin hpos
  · exact Nat.zero_le _

/-! ## All turns -/

/-- **The loop never stands behind the NUL of its line.** By induction on the run. -/
theorem Visited.within (h : Visited env text c) :
    0 < c.next → c.s + c.next.toNat ≤ c.line.length := by
  refine ReachVia.invariant (I := fun c => 0 < c.next → c.s + c.next.toNat ≤ c.line.length)
    h ?_ ?_
  · exact fun hpos => absurd hpos (lt_irrefl 0)
  · intro c r c' hwithin _ hturn
    exact (bodyOf_moves (place_le_of_reading hwithin hturn.1) hturn.2).within

/-- The characters that a turn has before it, its NUL counted. -/
def Reading.left (r : Reading) : ℕ := total r.input + (r.line.length + 1 - r.place)

/-- The characters that the loop has before it. -/
def Cursor.left (c : Cursor) : ℕ := (c.reading.map Reading.left).getD 0

/-- A turn leaves fewer characters. -/
theorem left_lt_of_moves (hplace : r.place ≤ r.line.length) (h : Moves r c') :
    c'.left < r.left := by
  obtain ⟨⟨hline, hinput⟩, hforward, hwithin⟩ := h
  unfold Cursor.left Cursor.reading
  split_ifs with hpos
  · have hlt := hforward hpos
    have hle := hwithin hpos
    rw [hline] at hle
    rw [Option.map_some, Option.getD_some, Reading.left, Reading.left, hline, hinput]
    dsimp only
    omega
  · rw [hinput, Reading.left]
    cases r.input with
    | nil =>
      show 0 < total [] + (r.line.length + 1 - r.place)
      omega
    | cons line input =>
      show total input + (line.length + 1 - 0) < _
      rw [total_cons]
      omega

/-- The loop stays inside its lines if all its turns meet the condition. -/
theorem staysInside_of_timeFits
    (h : ∀ c r, Visited env text c → c.reading = some r → TimeFits r) : StaysInside env text := by
  have hmoves : ∀ c r, Visited env text c → c.reading = some r →
      ∃ c', bodyOf env c r = some c' ∧ Moves r c' := by
    intro c r hvisited hreading
    have hplace := place_le_of_reading hvisited.within hreading
    obtain ⟨c', hbody⟩ := Option.isSome_iff_exists.mp
      ((bodyOf_isSome_iff env c r).mpr (h c r hvisited hreading))
    exact ⟨c', hbody, bodyOf_moves hplace hbody⟩
  refine ⟨Reach.exists_final (μ := Cursor.left) fun c hvisited => ?_, hmoves⟩
  cases hreading : c.reading with
  | none => exact Or.inl rfl
  | some r =>
    -- the characters that are left are the measure
    obtain ⟨c', hbody, hmove⟩ := hmoves c r hvisited hreading
    have hplace := place_le_of_reading (Visited.within hvisited) hreading
    have hlt := left_lt_of_moves hplace hmove
    have hleft : c.left = r.left := by
      rw [Cursor.left, hreading]
      rfl
    exact Or.inr ⟨r, c', ⟨hreading, hbody⟩, hleft ▸ hlt⟩

theorem StaysInside.timeFits (h : StaysInside env text) (hvisited : Visited env text c)
    (hreading : c.reading = some r) : TimeFits r := by
  obtain ⟨c', hbody, -⟩ := h.moves c r hvisited hreading
  rw [← bodyOf_isSome_iff env c r, hbody]
  rfl

/-- **The loop ends and stays inside its lines** exactly if the number of each `TIME` token
    that it comes to ends where `s + next` does not lie in front of the line. -/
theorem decoding_stays_inside_iff (env : AsciiEnv) (text : List Char) :
    StaysInside env text ↔ ∀ c r, Visited env text c → c.reading = some r → TimeFits r := by
  constructor
  · intro h c r hvisited hreading
    exact h.timeFits hvisited hreading
  · exact staysInside_of_timeFits

/-! ## Short lines -/

theorem reading_line_mem {lines : List (List Char)} (hinput : ∀ line ∈ c.input, line ∈ lines)
    (hline : 0 < c.next → c.line ∈ lines) (h : c.reading = some r) :
    r.line ∈ lines ∧ ∀ line ∈ r.input, line ∈ lines := by
  obtain ⟨hpos, rfl⟩ | ⟨-, line, input, hlines, rfl⟩ := reading_cases h
  · exact ⟨hline hpos, hinput⟩
  · rw [hlines] at hinput
    exact ⟨hinput line List.mem_cons_self, fun l hl => hinput l (List.mem_cons_of_mem _ hl)⟩

/-- The loop stands in a line of the text. By induction on the run. -/
theorem Visited.line_mem (h : Visited env text c) (hreading : c.reading = some r) :
    r.line ∈ getdelimLines text := by
  have hlines : (∀ line ∈ c.input, line ∈ getdelimLines text) ∧
      (0 < c.next → c.line ∈ getdelimLines text) := by
    refine ReachVia.invariant (I := fun c => (∀ line ∈ c.input, line ∈ getdelimLines text) ∧
      (0 < c.next → c.line ∈ getdelimLines text)) h ?_ ?_
    · exact ⟨fun line hline => hline, fun hpos => absurd hpos (lt_irrefl 0)⟩
    · intro c r c' hlines _ hturn
      obtain ⟨hline, hinput⟩ := reading_line_mem hlines.1 hlines.2 hturn.1
      obtain ⟨hline', hinput', -, -⟩ := bodyOf_inv hturn.2
      rw [hline', hinput']
      exact ⟨hinput, fun _ => hline⟩
  exact (reading_line_mem hlines.1 hlines.2 hreading).1

/-- On lines shorter than 2^31 the loop always stays inside. -/
theorem staysInside_of_short (env : AsciiEnv)
    (h : ∀ line ∈ getdelimLines text, line.length < 2 ^ 31) : StaysInside env text := by
  apply staysInside_of_timeFits
  intro c r hvisited hreading
  exact timeFits_of_short (h _ (hvisited.line_mem hreading))

/-- The turns of one short line do what the model does with what is left of the line. By
    induction on the length of what is left. -/
theorem exists_line_run (env : AsciiEnv) (hshort : r.line.length < 2 ^ 31)
    (hplace : r.place ≤ r.line.length) (hreading : c.reading = some r) :
    ∃ c', Reach (Turn env) c c' ∧ ¬ 0 < c'.next ∧ c'.input = r.input ∧
      c'.state = (decodeLine env c.state (r.line.drop r.place)).1 ∧
      c'.out = c.out ++ (decodeLine env c.state (r.line.drop r.place)).2 := by
  induction hn : r.line.length - r.place using Nat.strongRecOn generalizing c r with
  | ind n ih =>
    obtain ⟨c', hbody, hline, hinput, hstate, hout, hleft⟩ := exists_bodyOf hshort hplace env c
    have hturn : Reach (Turn env) c c' := Reach.step .refl r ⟨hreading, hbody⟩
    rw [decodeLine_eq]
    rcases htoken : decodeToken env c.state (r.line.drop r.place) with ⟨st, outs, _ | left⟩
    · rw [htoken] at hstate hout hleft
      split_ifs at hleft with hpos
      exact ⟨c', hturn, hpos, hinput, hstate, hout⟩
    · rw [htoken] at hstate hout hleft
      split_ifs at hleft with hpos
      have hmoves := bodyOf_moves hplace hbody
      have hforward := hmoves.forward hpos
      have hwithin := hmoves.within hpos
      have hgoes : c'.reading = some ⟨c'.line, c'.s + c'.next.toNat, c'.input⟩ := if_pos hpos
      obtain ⟨last, hrun, hnext, hinput', hstate', hout'⟩ :=
        ih _ (show c'.line.length - (c'.s + c'.next.toNat) < n by rw [hline] at hwithin ⊢; omega)
          (by rw [hline]; exact hshort) hwithin hgoes rfl
      refine ⟨last, hturn.trans hrun, hnext, hinput'.trans hinput, ?_, ?_⟩
      · rw [hstate', hstate, Option.some.inj hleft]
      · rw [hout', hout, hstate, Option.some.inj hleft, List.append_assoc]

/-- The turns of all lines. By induction on the lines that are not read yet. -/
theorem exists_run (env : AsciiEnv) {ls : List (List Char)} (hnext : ¬ 0 < c.next)
    (hinput : c.input = ls) (hshort : ∀ line ∈ ls, line.length < 2 ^ 31) :
    ∃ c', Reach (Turn env) c c' ∧ c'.reading = none ∧
      c'.state = runState (decodeLine env) c.state ls ∧
      c'.out = c.out ++ (runOut (decodeLine env) c.state ls).flatten := by
  induction ls generalizing c with
  | nil =>
    refine ⟨c, .refl, ?_, rfl, (List.append_nil _).symm⟩
    rw [Cursor.reading, if_neg hnext, hinput]
  | cons line ls ih =>
    have hreading : c.reading = some ⟨line, 0, ls⟩ := by
      rw [Cursor.reading, if_neg hnext, hinput]
    obtain ⟨c', hrun, hnext', hinput', hstate, hout⟩ :=
      exists_line_run env (hshort line List.mem_cons_self) (Nat.zero_le _) hreading
    obtain ⟨last, hrun', hend, hstate', hout'⟩ :=
      ih hnext' hinput' fun l hl => hshort l (List.mem_cons_of_mem _ hl)
    refine ⟨last, hrun.trans hrun', hend, ?_, ?_⟩
    · rw [hstate', hstate]
      rfl
    · rw [hout', hout, hstate, List.append_assoc]
      rfl

/-- **On short lines the loop does what `decodefatal` of the model does.** -/
theorem decodefatal_of_short (env : AsciiEnv)
    (h : ∀ line ∈ getdelimLines text, line.length < 2 ^ 31) :
    ∃ c, Visited env text c ∧ c.reading = none ∧
      decodefatal env text =
        c.out ++ if c.state.data then [dumpMceFinal c.state.record] else [] := by
  obtain ⟨c, hrun, hend, hstate, hout⟩ :=
    exists_run (c := { input := getdelimLines text }) env (lt_irrefl 0) rfl h
  refine ⟨c, hrun, hend, ?_⟩
  rw [hout, hstate]
  rfl

/-! ## Long lines -/

theorem getdelimLines_single (hne : text ≠ []) (hnl : '\n' ∉ text) (hnul : '\x00' ∉ text) :
    getdelimLines text = [text] := by
  rw [getdelimLines, lines_of_notMem hnl, rest_of_notMem hnl, if_neg hne, List.map_nil,
    List.nil_append, List.map_singleton, List.takeWhile_eq_self_iff.mpr]
  intro c hc
  apply decide_eq_true
  rintro rfl
  exact hnul hc

/-- A `TIME` with `k` blanks before its number is a line of its own and a token. -/
theorem reading_blanks (k : ℕ) :
    getdelimLines ("TIME".toList ++ (List.replicate k ' ' ++ ['5'])) =
        ["TIME".toList ++ (List.replicate k ' ' ++ ['5'])] ∧
      (⟨"TIME".toList ++ (List.replicate k ' ' ++ ['5']), 0, []⟩ : Reading).start =
        "TIME".toList ++ (List.replicate k ' ' ++ ['5']) := by
  have hnot : ∀ x, x ∉ "TIME".toList → x ≠ ' ' → x ≠ '5' →
      x ∉ "TIME".toList ++ (List.replicate k ' ' ++ ['5']) := by
    intro x hname hblank hdigit hx
    rcases List.mem_append.mp hx with hx | hx
    · exact hname hx
    rcases List.mem_append.mp hx with hx | hx
    · exact hblank (List.mem_replicate.mp hx).2
    · exact hdigit (List.mem_singleton.mp hx)
  constructor
  · apply getdelimLines_single
    · exact List.cons_ne_nil _ _
    · exact hnot '\n' (by decide) (by decide) (by decide)
    · exact hnot '\x00' (by decide) (by decide) (by decide)
  · show skipgunk (List.drop 0 _) = _
    rw [List.drop_zero]
    apply skipgunk_cons
    · exact ⟨'m', by decide, hnot 'm' (by decide) (by decide) (by decide)⟩
    · decide

theorem readNumber_blanks (k : ℕ) :
    readNumber (List.replicate k ' ' ++ ['5']) = some (⟨false, 5⟩, []) := by
  have hblanks : (List.replicate k ' ' ++ ['5']).dropWhile isSpace = ['5'] := by
    rw [List.dropWhile_append_of_pos fun c hc => (List.mem_replicate.mp hc).2 ▸ (by decide)]
    rfl
  rw [← readNumber_dropWhile, hblanks]
  rfl

/-- If the number ends 2 GiB behind its `TIME`, then `next` is negative. -/
theorem not_staysInside_blanks (env : AsciiEnv) {k : ℕ} (hlo : 2 ^ 31 ≤ k + 5)
    (hhi : k + 5 < 2 ^ 32) :
    ¬ StaysInside env ("TIME".toList ++ (List.replicate k ' ' ++ ['5'])) := by
  intro h
  obtain ⟨hlines, hstart⟩ := reading_blanks k
  set text := "TIME".toList ++ (List.replicate k ' ' ++ ['5']) with htext
  have hlength : text.length = k + 5 := by
    rw [htext, List.length_append, List.length_append, List.length_replicate,
      List.length_singleton]
    show 4 + (k + 1) = k + 5
    omega
  have hreading : (⟨{}, [], getdelimLines text, [], 0, 0⟩ : Cursor).reading =
      some ⟨text, 0, []⟩ := by
    rw [hlines]
    rfl
  have hfits := h.timeFits ReachVia.refl hreading
  rw [TimeFits, hstart] at hfits
  have hplace := hfits ⟨false, 5⟩ [] rfl (readNumber_blanks k)
  have hstored : storeInt ((k + 5 - ([] : List Char).length : ℕ) : ℤ) = k + 5 - 2 ^ 32 := by
    rw [storeInt, Int.bmod_def, List.length_nil]
    split_ifs <;> omega
  rw [hlength, hstored] at hplace
  omega

/-- A number that ends 2 GiB behind its `TIME`: `skip_date` reads in front of the line. -/
theorem long_time_outside :
    ¬ StaysInside ⟨false, 0⟩ ("TIME".toList ++ (List.replicate (2 ^ 31) ' ' ++ ['5'])) :=
  not_staysInside_blanks _ (by norm_num) (by norm_num)

end

end Mcelog.Ascii
