import Mcelog.Common.Transition
import Mcelog.Ascii.Tokens

/-!
# The loop over tokens

`decodefatal` keeps the place that it has come to as an offset `next` from a pointer `s` into
the line. `next` is an `int` that `%n` stores into, and `skip_date` is called with `s + next`
while it is known nowhere that `next` is not negative. Here the loop runs on this state.

* `nextAfter_le`: a turn ends in its line.
* `bodyOf_isSome_iff`: what it takes not to read in front of the line.
* `exists_bodyOf`: a turn on a line shorter than 2^31 is one of `decodeToken`, which has
  places without a bound.
-/

namespace Mcelog.Ascii

open Mcelog.Common Mcelog.Machine

/-! ## The state of the loop -/

/-- What an `int` holds after `n` was stored in it. -/
def storeInt (n : ℤ) : ℤ := n.bmod (2 ^ 32)

/-- The locals of the loop: the line as a C string, the offset of `s` in it, `next`, and the
    lines that are not read yet; the record and what has been printed besides. -/
structure Cursor where
  state : Decoder := {}
  out : List AsciiOut := []
  input : List (List Char)
  line : List Char := []
  s : ℕ := 0
  next : ℤ := 0

/-- The place at which a turn of the loop starts. -/
structure Reading where
  line : List Char
  place : ℕ
  input : List (List Char)

/-- `while (next > 0 || getdelim(..) > 0)`, then `s = next > 0 ? s + next : line`
    (mcelog.c:657-661). -/
def Cursor.reading (c : Cursor) : Option Reading :=
  if 0 < c.next then some ⟨c.line, c.s + c.next.toNat, c.input⟩
  else match c.input with
    | [] => none
    | line :: input => some ⟨line, 0, input⟩

/-- The text of a turn, after `skipgunk`. -/
def Reading.start (r : Reading) : List Char := skipgunk (r.line.drop r.place)

/-- What `%n` counts in `"TIME %llu%n"`. -/
def timeNumber (s : List Char) : ℕ :=
  ((sscanf (literal "TIME" ++ [.space, .num 10 false none 64, .pos]) s).pos? 1).getD 0

/-- `next += skip_date(s + next)` (mcelog.c:757-764), for `s` at the offset `place` in the
    line: none where `s + next` lies in front of the line. -/
def timeNext (line : List Char) (place : ℕ) (next : ℤ) : Option ℤ :=
  if place + next < 0 then none
  else some (storeInt (next + skipDate (line.drop (place + next).toNat)))

/-- `next` after a turn. Only the branch for `TIME` does more than to let `sscanf` store it. -/
def nextAfter (env : AsciiEnv) (record : AsciiRecord) (r : Reading) : Option ℤ :=
  match token env record r.start with
  | some t =>
    if strncmp r.start "TIME" 4 then
      timeNext r.line (r.line.length - r.start.length) (storeInt (timeNumber r.start))
    else some (storeInt t.next)
  | none => some 0

/-- The place of `s` after a turn. -/
def placeAfter (env : AsciiEnv) (record : AsciiRecord) (r : Reading) : ℕ :=
  match token env record r.start with
  | some t => r.line.length - t.s.length
  | none => r.line.length - r.start.length

/-- The body of the loop (mcelog.c:658-848), none where it reads in front of the line. -/
def bodyOf (env : AsciiEnv) (c : Cursor) (r : Reading) : Option Cursor :=
  let (state, outs, _) := decodeToken env c.state (r.line.drop r.place)
  (nextAfter env c.state.record r).map fun next =>
    { state := state, out := c.out ++ outs, input := r.input, line := r.line
      s := placeAfter env c.state.record r, next := next }

/-- A turn of the loop. -/
def Turn (env : AsciiEnv) (c : Cursor) (r : Reading) (c' : Cursor) : Prop :=
  c.reading = some r ∧ bodyOf env c r = some c'

/-- The states at the head of the loop, for this input. -/
def Visited (env : AsciiEnv) (text : List Char) (c : Cursor) : Prop :=
  Reach (Turn env) { input := getdelimLines text } c

/-! ## Machine integers -/

section

variable {n : ℤ}

theorem storeInt_eq (hlo : -2 ^ 31 ≤ n) (hhi : n < 2 ^ 31) : storeInt n = n := by
  rw [storeInt, Int.bmod_def]
  split_ifs <;> omega

theorem storeInt_ge (n : ℤ) : -2 ^ 31 ≤ storeInt n := by
  rw [storeInt, Int.bmod_def]
  split_ifs <;> omega

/-- A value that is too large gets smaller. -/
theorem storeInt_le (hlo : -2 ^ 31 ≤ n) : storeInt n ≤ n := by
  rw [storeInt, Int.bmod_def]
  split_ifs <;> omega

end

/-! ## The places of a token -/

section

variable {env : AsciiEnv} {record : AsciiRecord} {s line : List Char} {t : Token} {r : Reading}
  {next : ℤ}

theorem skipDate_le (s : List Char) : skipDate s ≤ s.length := by
  have hargs : (sscanf dateFormat s).args = (scan s.length dateFormat s).1 := rfl
  unfold skipDate
  split
  · rename_i hmatch
    split_ifs
    · rw [hargs] at hmatch
      apply scan_pos_le
      rw [hmatch]
      simp
    · exact Nat.zero_le _
  · exact Nat.zero_le _

theorem numField_next_le (name : String) (base bits : ℕ) (f : Field) (store : Mce → ℕ → Mce)
    (record : AsciiRecord) (s : List Char) :
    (numField name base bits f store record s).next ≤ s.length :=
  sscanf_pos_le _ (Nat.zero_le _) 1

theorem timeToken_next_le (record : AsciiRecord) (s : List Char) :
    (timeToken record s).next ≤ s.length := by
  unfold timeToken
  dsimp only
  set t := numField "TIME" 10 64 .time (fun m v => { m with time := .ofNat v }) record s
  have hnumber : t.next ≤ s.length := numField_next_le ..
  have hdate := skipDate_le (s.drop t.next)
  rw [List.length_drop] at hdate
  omega

theorem cpuToken_next_le (record : AsciiRecord) (s : List Char) :
    (cpuToken record s).next ≤ s.length := by
  have hfatal : ((sscanf fatalFormat s).pos? 4).getD 0 ≤ s.length :=
    sscanf_pos_le _ (Nat.zero_le _) 4
  unfold cpuToken
  dsimp only
  split_ifs
  all_goals first
    | exact hfatal
    | exact sscanf_pos_le _ (sscanf_pos_le _ hfatal 2) 2

theorem xenToken_next (env : AsciiEnv) (record : AsciiRecord) (s : List Char) :
    (xenToken env record s).next = 0 := by
  unfold xenToken
  split
  · split <;> rfl
  · rfl

/-- No branch counts further than to the end of its text. -/
theorem Branch.run_next_le {b : Branch} (h : b ∈ branches env) (record : AsciiRecord)
    (s : List Char) : (b.run record s).next ≤ (b.run record s).s.length := by
  have hall : List.Forall
      (fun b : Branch => ∀ r s, (b.run r s).next ≤ (b.run r s).s.length) (branches env) := by
    refine ⟨fun r s => (cpuToken_s r s).symm ▸ cpuToken_next_le r s, numField_next_le _ _ _ _ _,
      numField_next_le _ _ _ _ _, fun r s => sscanf_pos_le _ (Nat.zero_le _) 3,
      numField_next_le _ _ _ _ _, numField_next_le _ _ _ _ _, numField_next_le _ _ _ _ _,
      fun r s => sscanf_pos_le _ (Nat.zero_le _) 2, timeToken_next_le,
      numField_next_le _ _ _ _ _, numField_next_le _ _ _ _ _, numField_next_le _ _ _ _ _,
      numField_next_le _ _ _ _ _, fun r s => Nat.zero_le _, fun r s => Nat.zero_le _,
      fun r s => (xenToken_next env r s).symm ▸ Nat.zero_le _, numField_next_le _ _ _ _ _,
      fun r s => Nat.zero_le _⟩
  exact List.forall_iff_forall_mem.mp hall b h record s

theorem token_next_le (h : token env record s = some t) : t.next ≤ t.s.length := by
  obtain ⟨b, hfind, rfl⟩ := Option.map_eq_some_iff.mp h
  exact Branch.run_next_le (List.mem_of_find?_eq_some hfind) record s

/-- A text that starts with `TIME` has no other branch. -/
theorem token_time (h : strncmp s "TIME" 4 = true) (env : AsciiEnv) (record : AsciiRecord) :
    token env record s = some (timeToken record s) := by
  obtain ⟨left, rfl⟩ := List.isPrefixOf_iff_prefix.mp h
  rfl

/-! ## One turn -/

theorem length_start_le (r : Reading) : r.start.length ≤ r.line.length - r.place := by
  have hle := (skipgunk_suffix (r.line.drop r.place)).length_le
  rwa [List.length_drop] at hle

/-- `s` only moves forward. -/
theorem placeAfter_ge (env : AsciiEnv) (record : AsciiRecord) (hplace : r.place ≤ r.line.length) :
    r.place ≤ placeAfter env record r ∧ placeAfter env record r ≤ r.line.length := by
  have hstart := length_start_le r
  unfold placeAfter
  split
  · rename_i t ht
    have hs := (token_suffix ht).length_le
    omega
  · omega

/-- The date ends in the line, whatever `next` has come to. -/
theorem timeNext_le {place : ℕ} (h : timeNext line place next = some n')
    (hlo : -2 ^ 31 ≤ next) (hhi : place + next ≤ line.length) : place + n' ≤ line.length := by
  unfold timeNext at h
  split_ifs at h with hneg
  obtain rfl := Option.some.inj h
  have hdate := skipDate_le (line.drop (place + next).toNat)
  rw [List.length_drop] at hdate
  have hstore := storeInt_le (n := next + skipDate (line.drop (place + next).toNat)) (by omega)
  omega

/-- **A turn ends in its line.** -/
theorem nextAfter_le (hplace : r.place ≤ r.line.length)
    (h : nextAfter env record r = some next) :
    placeAfter env record r + next ≤ r.line.length := by
  have hstart := length_start_le r
  unfold nextAfter at h
  unfold placeAfter
  cases htoken : token env record r.start with
  | none =>
    rw [htoken] at h
    obtain rfl := Option.some.inj h
    dsimp only
    omega
  | some t =>
    rw [htoken] at h
    have hs := (token_suffix htoken).length_le
    dsimp only at h ⊢
    split_ifs at h with htime
    · rw [token_time htime] at htoken
      obtain rfl := Option.some.inj htoken
      have hnumber : timeNumber r.start ≤ r.start.length := sscanf_pos_le _ (Nat.zero_le _) 1
      have hstore := storeInt_le (n := timeNumber r.start) (by omega)
      have hsame : (timeToken record r.start).s = r.start := rfl
      rw [hsame]
      exact timeNext_le h (storeInt_ge _) (by omega)
    · obtain rfl := Option.some.inj h
      have hnext := token_next_le htoken
      have hstore := storeInt_le (n := t.next) (by omega)
      omega

/-! ## Where the number of a time ends -/

/-- The place behind the number of a `TIME` token, as an `int` from the token on, does not lie
    in front of the line. -/
def TimeFits (r : Reading) : Prop :=
  ∀ w left, strncmp r.start "TIME" 4 = true → readNumber (r.start.drop 4) = some (w, left) →
    0 ≤ (r.line.length - r.start.length : ℕ) + storeInt (r.start.length - left.length : ℕ)


theorem timeNumber_eq (h : strncmp s "TIME" 4 = true) :
    timeNumber s = (readNumber (s.drop 4)).elim 0 fun p => s.length - p.2.length := by
  obtain ⟨body, hbody⟩ := List.isPrefixOf_iff_prefix.mp h
  obtain rfl : "TIME".toList ++ body = s := hbody
  have hlast : isSpace ("TIME".toList.getLastD 'x') = true → NoHead isSpace body :=
    fun h => absurd h (by decide)
  have hdrop : ("TIME".toList ++ body).drop 4 = body := rfl
  unfold timeNumber sscanf
  dsimp only [ScanResult.pos?]
  rw [scan_literal "TIME" (by decide) hlast, scan, hdrop]
  cases hnumber : readNumber body with
  | none =>
    obtain ⟨e, he⟩ := scan_readNumber_bits_none ((readNumber_dropWhile body).trans hnumber) 64
      ("TIME".toList ++ body).length [.pos]
    rw [he]
    rfl
  | some p =>
    rw [scan_readNumber_bits ((readNumber_dropWhile body).trans hnumber)]
    rfl

/-- The condition is about the number that the branch reads. -/
theorem timeFits_iff (r : Reading) :
    TimeFits r ↔ (strncmp r.start "TIME" 4 = true →
      0 ≤ (r.line.length - r.start.length : ℕ) + storeInt (timeNumber r.start)) := by
  constructor
  · intro h htime
    rw [timeNumber_eq htime]
    cases hnumber : readNumber (r.start.drop 4) with
    | none =>
      show 0 ≤ ((r.line.length - r.start.length : ℕ) : ℤ) + storeInt (0 : ℕ)
      rw [storeInt_eq (by omega) (by omega)]
      omega
    | some p => exact h p.1 p.2 htime hnumber
  · intro h w left htime hnumber
    have hfits := h htime
    rw [timeNumber_eq htime, hnumber] at hfits
    exact hfits

theorem timeNext_isSome_iff {place : ℕ} :
    (timeNext line place next).isSome = true ↔ 0 ≤ place + next := by
  unfold timeNext
  split_ifs with hneg
  · simp [hneg]
  · simp [not_lt.mp hneg]

theorem nextAfter_isSome_iff (env : AsciiEnv) (record : AsciiRecord) (r : Reading) :
    (nextAfter env record r).isSome = true ↔ TimeFits r := by
  rw [timeFits_iff]
  unfold nextAfter
  by_cases htime : strncmp r.start "TIME" 4 = true
  · rw [token_time htime]
    dsimp only
    rw [if_pos htime, timeNext_isSome_iff]
    exact ⟨fun h _ => h, fun h => h htime⟩
  · constructor
    · exact fun _ h => absurd h htime
    · intro _
      cases token env record r.start with
      | none => rfl
      | some t =>
        dsimp only
        rw [if_neg htime]
        rfl

/-- **What a turn takes not to read in front of the line.** -/
theorem bodyOf_isSome_iff (env : AsciiEnv) (c : Cursor) (r : Reading) :
    (bodyOf env c r).isSome = true ↔ TimeFits r := by
  rw [bodyOf, Option.isSome_map, nextAfter_isSome_iff]

/-! ## Short lines -/

theorem timeFits_of_short (hshort : r.line.length < 2 ^ 31) : TimeFits r := by
  intro w left _ _
  have hstart := length_start_le r
  rw [storeInt_eq (by omega) (by omega)]
  omega

/-- The text behind `n` characters of the end of the line. -/
theorem drop_place (hsuffix : s <:+ line) (n : ℕ) :
    line.drop (line.length - s.length + n) = s.drop n := by
  rw [← List.drop_drop, drop_length_sub hsuffix]

/-- On a short line `next` is the offset of the model without bounds. -/
theorem nextAfter_of_short (hshort : r.line.length < 2 ^ 31) (hplace : r.place ≤ r.line.length)
    (env : AsciiEnv) (record : AsciiRecord) :
    nextAfter env record r =
      some ((((token env record r.start).map Token.next).getD 0 : ℕ) : ℤ) := by
  have hstart := length_start_le r
  unfold nextAfter
  cases htoken : token env record r.start with
  | none => rfl
  | some t =>
    have hs := (token_suffix htoken).length_le
    have hnext := token_next_le htoken
    dsimp only [Option.map_some, Option.getD_some]
    split_ifs with htime
    · rw [token_time htime] at htoken
      obtain rfl := Option.some.inj htoken
      have hsuffix : r.start <:+ r.line := (skipgunk_suffix _).trans (List.drop_suffix _ _)
      have hvalue : (timeToken record r.start).next =
          timeNumber r.start + skipDate (r.start.drop (timeNumber r.start)) := rfl
      rw [hvalue] at hnext ⊢
      rw [storeInt_eq (by omega) (by omega), timeNext, if_neg (by omega),
        show ((r.line.length - r.start.length : ℕ) + (timeNumber r.start : ℤ)).toNat =
          r.line.length - r.start.length + timeNumber r.start by omega,
        drop_place hsuffix, storeInt_eq (by omega) (by omega), Nat.cast_add]
    · rw [storeInt_eq (by omega) (by omega)]

end

/-! ## The model without bounds -/

section

variable {env : AsciiEnv} {c : Cursor} {r : Reading}

/-- Where the model goes on in the line, by the places of the turn. -/
theorem decodeToken_left (env : AsciiEnv) (st : Decoder) (r : Reading) :
    (decodeToken env st (r.line.drop r.place)).2.2 =
      if 0 < ((token env st.record r.start).map Token.next).getD 0 then
        some (r.line.drop
          (placeAfter env st.record r + ((token env st.record r.start).map Token.next).getD 0))
      else none := by
  unfold decodeToken placeAfter
  show (match token env st.record r.start with
    | some t => _
    | none => _ : Decoder × List AsciiOut × Option (List Char)).2.2 = _
  cases htoken : token env st.record r.start with
  | none =>
    dsimp only [Option.map_none, Option.getD_none]
    split_ifs <;> first | rfl | omega
  | some t =>
    have hsuffix : t.s <:+ r.line :=
      (token_suffix htoken).trans ((skipgunk_suffix _).trans (List.drop_suffix _ _))
    dsimp only [Option.map_some, Option.getD_some]
    rw [drop_place hsuffix]

/-- A turn on a short line is a turn of the model. -/
theorem exists_bodyOf (hshort : r.line.length < 2 ^ 31) (hplace : r.place ≤ r.line.length)
    (env : AsciiEnv) (c : Cursor) :
    ∃ c', bodyOf env c r = some c' ∧ c'.line = r.line ∧ c'.input = r.input ∧
      c'.state = (decodeToken env c.state (r.line.drop r.place)).1 ∧
      c'.out = c.out ++ (decodeToken env c.state (r.line.drop r.place)).2.1 ∧
      (if 0 < c'.next then some (c'.line.drop (c'.s + c'.next.toNat)) else none) =
        (decodeToken env c.state (r.line.drop r.place)).2.2 := by
  set turn := decodeToken env c.state (r.line.drop r.place) with hturn
  refine ⟨{ state := turn.1, out := c.out ++ turn.2.1, input := r.input, line := r.line
            s := placeAfter env c.state.record r
            next := (((token env c.state.record r.start).map Token.next).getD 0 : ℕ) },
    ?_, rfl, rfl, rfl, rfl, ?_⟩
  · show (nextAfter env c.state.record r).map _ = _
    rw [nextAfter_of_short hshort hplace]
    rfl
  · rw [hturn, decodeToken_left]
    dsimp only
    rw [Int.toNat_natCast]
    simp only [Int.natCast_pos]

end

end Mcelog.Ascii
