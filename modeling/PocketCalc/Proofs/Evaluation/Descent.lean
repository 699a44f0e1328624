import Mathlib.Control.Monad.Basic
import PocketCalc.Proofs.Evaluation.Reading

/-!
# Recursive descent over a cursor

The readers take the tokens that are left, and there are as many readers for groups as may be
opened.  Here the same phrases are read by calls that share a cursor: the position of the next
token and a counter of the open groups.  A call takes a frame of a call stack of bounded size, and
a loop makes a bounded number of rounds; where either is used up there is no result.

Main statements: a call with frames and rounds enough comes to what its reader makes of the tokens,
with the cursor further on and the counter as it was (`follows_exec`).  The rounds of a loop are
bounded by the number of tokens, the frames only by the groups that may still be opened
(`descent_terminates`).
-/

namespace PocketCalc.Evaluator

/-- Where a descent stands: the position of the next token, how many groups are open, and the
most that have been open at once. -/
structure Cursor where
  pos : Nat
  depth : Nat
  peak : Nat
  depth_le_peak : depth ≤ peak

namespace Cursor

/-- The cursor of a call that begins at `pos` with `depth` groups open. -/
def start (pos depth : Nat) : Cursor := ⟨pos, depth, depth, Nat.le_refl depth⟩

/-- Moves past a token. -/
def next (c : Cursor) : Cursor := { c with pos := c.pos + 1 }

/-- Counts a group that opens. -/
def enter (c : Cursor) : Cursor :=
  ⟨c.pos, c.depth + 1, max c.peak (c.depth + 1), Nat.le_max_right _ _⟩

/-- Counts a group that closes. -/
def leave (c : Cursor) : Cursor :=
  ⟨c.pos, c.depth - 1, c.peak, Nat.le_trans (Nat.sub_le _ _) c.depth_le_peak⟩

/-- The tokens that are left. -/
def rest (c : Cursor) (ts : List Token) : List Token := ts.drop c.pos

theorem pos_lt_length {c : Cursor} {t : Token} {ts us : List Token} (h : c.rest ts = t :: us) :
    c.pos < ts.length := by
  rcases Nat.lt_or_ge c.pos ts.length with hlt | hge
  · exact hlt
  · rw [rest, List.drop_eq_nil_of_le hge] at h
    cases h

theorem rest_next {c : Cursor} {t : Token} {ts us : List Token} (h : c.rest ts = t :: us) :
    c.next.rest ts = us := by
  have htail : (c.rest ts).tail = us := by rw [h]; rfl
  rw [← htail]
  exact (List.tail_drop ..).symm

end Cursor

/-- A part of a descent.  A fault keeps the cursor where it was met.  There is no result if the
frames or the rounds are used up. -/
abbrev Descent := ExceptT EvalError (StateT Cursor Option)

namespace Descent

variable {α β : Type}

/-- What a descent comes to from the cursor `c`. -/
def runAt (m : Descent α) (c : Cursor) : Option (Except EvalError α × Cursor) := m.run.run c

/-- A call without a frame, or a loop without a round. -/
def exhausted : Descent α := ExceptT.mk (StateT.lift none)

/-- The next token. -/
def peek (ts : List Token) : Descent (Option Token) := do return ts[(← get).pos]?

/-- The next token, which is passed if there is one. -/
def advance (ts : List Token) : Descent (Option Token) := do
  let t ← peek ts
  if t.isSome then modify Cursor.next
  return t

/-- Passes the percent signs after an operand of value `x`, one in a round. -/
def percentSigns (limit : Float) (ts : List Token) : Nat → Float → Descent Float
  | 0, _ => exhausted
  | rounds + 1, x => do
    match ← peek ts with
    | some .percent =>
      modify Cursor.next
      let y ← MonadExcept.ofExcept (check limit (x / 100))
      percentSigns limit ts rounds y
    | _ => return x

/-- Passes the operators of precedence `level` after an operand of value `x`, one in a round with
its right operand, and combines them from left to right. -/
def operators (limit : Float) (ts : List Token) (level : Nat) (operand : Descent Float) :
    Nat → Float → Descent Float
  | 0, _ => exhausted
  | rounds + 1, x => do
    match ← peek ts with
    | some (.operator op) =>
      if op.precedence = level then
        modify Cursor.next
        let y ← operand
        let z ← MonadExcept.ofExcept (apply limit op x y)
        operators limit ts level operand rounds z
      else return x
    | _ => return x

/-- Passes the closing parenthesis of a group of value `x`. -/
def closeGroup (ts : List Token) (x : Float) : Descent Float := do
  modify Cursor.leave
  match ← advance ts with
  | some .rightParen => return x
  | _ => throw .malformedExpression

/-- Passes a number, or a group whose inside is passed by `inside`. -/
def atom (limit : Float) (ts : List Token) (inside : Descent Float) : Descent Float := do
  match ← advance ts with
  | some (.number text) => MonadExcept.ofExcept (literal limit text)
  | some .leftParen =>
    if maxNesting ≤ (← get).depth then throw .malformedExpression
    else
      modify Cursor.enter
      let x ← inside
      closeGroup ts x
  | _ => throw .malformedExpression

end Descent

/-- The calls of a descent, one for each kind of phrase. -/
inductive Call where
  | binary (level : Nat)
  | factor
  | primary

open Descent in
/-- What a call does when `frames` calls may still be under way at once, itself among them, and a
loop may make `rounds` rounds. -/
def Call.exec (limit : Float) (ts : List Token) (rounds : Nat) : Nat → Call → Descent Float
  | 0, _ => exhausted
  | frames + 1, .binary level =>
    if 2 < level then exec limit ts rounds frames .factor
    else do
      let x ← exec limit ts rounds frames (.binary (level + 1))
      operators limit ts level (exec limit ts rounds frames (.binary (level + 1))) rounds x
  | frames + 1, .factor => do
    let x ← exec limit ts rounds frames .primary
    percentSigns limit ts rounds x
  | frames + 1, .primary => atom limit ts (exec limit ts rounds frames (.binary 1))

/-- Evaluates by descent, with `frames` frames and `rounds` rounds.  No tokens are refused at once,
and the descent has to come to their end. -/
def evaluateWithin (frames rounds : Nat) (limit : Float) (ts : List Token) :
    Option (Except EvalError Float) :=
  if ts.isEmpty then some (.error .malformedExpression)
  else
    ((Call.binary 1).exec limit ts rounds frames).runAt (.start 0 0) |>.map fun (result, c) =>
      result >>= fun x => if c.pos = ts.length then .ok x else .error .malformedExpression

/-! ## What the parts of a descent come to -/

namespace Descent

variable {α β : Type} {ts : List Token} {c : Cursor}

theorem runAt_ofExcept (a : Except EvalError α) :
    runAt (MonadExcept.ofExcept a) c = some (a, c) := by
  cases a <;> rfl

theorem runAt_bind_of_ok {m : Descent α} {c' : Cursor} {x : α}
    (h : runAt m c = some (.ok x, c')) (f : α → Descent β) :
    runAt (m >>= f) c = runAt (f x) c' := by
  show Option.bind (runAt m c) _ = _
  rw [h]
  rfl

theorem runAt_bind_of_error {m : Descent α} {c' : Cursor} {e : EvalError}
    (h : runAt m c = some (.error e, c')) (f : α → Descent β) :
    runAt (m >>= f) c = some (.error e, c') := by
  show Option.bind (runAt m c) _ = _
  rw [h]
  rfl

theorem runAt_modify_bind (g : Cursor → Cursor) (f : PUnit → Descent β) :
    runAt (modify g >>= f) c = runAt (f ⟨⟩) (g c) := rfl

theorem runAt_peek_bind (f : Option Token → Descent β) :
    runAt (peek ts >>= f) c = runAt (f (c.rest ts).head?) c := by
  rw [Cursor.rest, List.head?_drop]
  rfl

theorem runAt_advance_bind (f : Option Token → Descent β) :
    runAt (advance ts >>= f) c =
      runAt (f (c.rest ts).head?) (if (c.rest ts).isEmpty then c else c.next) := by
  have hpeek : runAt (advance ts) c =
      some (.ok (c.rest ts).head?, if (c.rest ts).isEmpty then c else c.next) := by
    rw [advance, runAt_peek_bind]
    cases c.rest ts <;> rfl
  exact runAt_bind_of_ok hpeek f

end Descent

/-! ## Descents that follow a reader -/

/-- The cursor stands in `ts`, at `least` or further, with `depth` groups open, and there have
never been more than are allowed. -/
structure Cursor.Within (ts : List Token) (least depth : Nat) (c : Cursor) : Prop where
  least_le : least ≤ c.pos
  pos_le : c.pos ≤ ts.length
  depth_eq : c.depth = depth
  peak_le : c.peak ≤ maxNesting

/-- A descent over `ts` comes to what a reader made of the tokens: to its value, with the cursor
on the tokens that it left, or to its fault. -/
inductive Tracks (ts : List Token) (least depth : Nat) :
    Except EvalError (Float × List Token) → Option (Except EvalError Float × Cursor) → Prop where
  | value {x : Float} {c : Cursor} (h : c.Within ts least depth) :
    Tracks ts least depth (.ok (x, c.rest ts)) (some (.ok x, c))
  | fault {e : EvalError} {c : Cursor} (h : c.peak ≤ maxNesting) :
    Tracks ts least depth (.error e) (some (.error e, c))

/-- Wherever `depth` groups are open, the descent `m` moves on and comes to what `read` makes of
the tokens that are left. -/
def Follows (ts : List Token) (depth : Nat) (m : Descent Float) (read : Reader) : Prop :=
  ∀ c : Cursor, c.depth = depth → c.peak ≤ maxNesting →
    Tracks ts (c.pos + 1) depth (run read (c.rest ts)) (m.runAt c)

open Descent

section Tracks

variable {ts : List Token} {least depth : Nat}

theorem Cursor.Within.next {c : Cursor} (hc : c.Within ts least depth) {t : Token}
    {us : List Token} (h : c.rest ts = t :: us) : c.next.Within ts least depth :=
  ⟨Nat.le_succ_of_le hc.least_le, Cursor.pos_lt_length h, hc.depth_eq, hc.peak_le⟩

theorem Cursor.Within.mono {c : Cursor} {m : Nat} (hc : c.Within ts m depth) (h : least ≤ m) :
    c.Within ts least depth :=
  ⟨Nat.le_trans h hc.least_le, hc.pos_le, hc.depth_eq, hc.peak_le⟩

theorem Tracks.stay {x : Float} {c : Cursor} {us : List Token} (hc : c.Within ts least depth)
    (h : c.rest ts = us) : Tracks ts least depth (.ok (x, us)) (some (.ok x, c)) :=
  h ▸ .value hc

/-- Where one part tracks a reader and the part after it the next, both together do. -/
theorem Tracks.bind {least' depth' : Nat} {a : Except EvalError (Float × List Token)}
    {g : Float × List Token → Except EvalError (Float × List Token)} {m : Descent Float}
    {f : Float → Descent Float} {c : Cursor} (hm : Tracks ts least depth a (m.runAt c))
    (hf : ∀ x c', Cursor.Within ts least depth c' →
      Tracks ts least' depth' (g (x, c'.rest ts)) ((f x).runAt c')) :
    Tracks ts least' depth' (a >>= g) ((m >>= f).runAt c) := by
  generalize hr : m.runAt c = r at hm
  cases hm with
  | value h =>
    rw [runAt_bind_of_ok hr]
    exact hf _ _ h
  | fault h =>
    rw [runAt_bind_of_error hr]
    exact .fault h

/-- A value that is worked out apart from the cursor leaves it where it is. -/
theorem Tracks.of_except {c : Cursor} (hc : c.peak ≤ maxNesting) (a : Except EvalError Float)
    {g : Float → Except EvalError (Float × List Token)} {f : Float → Descent Float}
    (hf : ∀ x, Tracks ts least depth (g x) ((f x).runAt c)) :
    Tracks ts least depth (a >>= g) ((MonadExcept.ofExcept a >>= f : Descent Float).runAt c) := by
  cases a with
  | error e =>
    rw [runAt_bind_of_error (runAt_ofExcept _)]
    exact .fault hc
  | ok x =>
    rw [runAt_bind_of_ok (runAt_ofExcept _)]
    exact hf x

end Tracks

/-! ## The loops -/

section Loops

variable {ts : List Token} {least depth rounds : Nat} (limit : Float)

theorem tracks_percentSigns (x : Float) {c : Cursor} (hc : c.Within ts least depth)
    (hrounds : ts.length - c.pos < rounds) :
    Tracks ts least depth (run (percents limit x) (c.rest ts))
      ((percentSigns limit ts rounds x).runAt c) := by
  induction rounds generalizing x c with
  | zero => exact absurd hrounds (Nat.not_lt_zero _)
  | succ rounds ih =>
    rw [percentSigns, runAt_peek_bind]
    match hus : c.rest ts with
    | .percent :: us =>
      have hlen := Cursor.pos_lt_length hus
      have hrounds' : ts.length - c.next.pos < rounds := by
        show ts.length - (c.pos + 1) < rounds
        omega
      rw [run_percents_percent, ← Cursor.rest_next hus]
      exact Tracks.of_except (c := c.next) hc.peak_le _ fun y => ih y (hc.next hus) hrounds'
    | [] | .number _ :: _ | .operator _ :: _ | .leftParen :: _ | .rightParen :: _ =>
      exact .stay hc hus

/-- A chain stops where no operator of its precedence stands. -/
theorem run_chain_stay {level : Nat} {read : Reader} {x : Float} {us : List Token}
    (h : ∀ op vs, us = .operator op :: vs → op.precedence ≠ level) :
    run (chain limit level read x) us = .ok (x, us) := by
  simp only [run]
  rw [chain.eq_def]
  split
  · next op vs =>
    rw [if_neg (h op vs rfl)]
    rfl
  · rfl

variable {m : Descent Float} {read : Reader} {level : Nat}

/-- The operand of a round moves on, so there is a round for every operator. -/
theorem tracks_operators (ho : Follows ts depth m read) (x : Float) {c : Cursor}
    (hc : c.Within ts least depth) (hrounds : ts.length - c.pos < rounds) :
    Tracks ts least depth (run (chain limit level read x) (c.rest ts))
      ((operators limit ts level m rounds x).runAt c) := by
  induction rounds generalizing x c with
  | zero => exact absurd hrounds (Nat.not_lt_zero _)
  | succ rounds ih =>
    rw [operators, runAt_peek_bind]
    match hus : c.rest ts with
    | .operator op :: us =>
      show Tracks ts least depth _ (runAt (if op.precedence = level then _ else _) c)
      by_cases hop : op.precedence = level
      · rw [if_pos hop, runAt_modify_bind, run_chain_operator hop, ← Cursor.rest_next hus]
        refine (ho c.next hc.depth_eq hc.peak_le).bind fun y c' hc' => ?_
        refine Tracks.of_except hc'.peak_le _ fun z => ?_
        have hlen := Cursor.pos_lt_length hus
        have hpos : c.pos + 2 ≤ c'.pos := hc'.least_le
        have hleast : least ≤ c.pos + 2 := Nat.le_add_right_of_le hc.least_le
        exact ih z (hc'.mono hleast) (by omega)
      · rw [if_neg hop, run_chain_stay limit fun op' vs h => by cases h; exact hop]
        exact .stay hc hus
    | [] | .number _ :: _ | .leftParen :: _ | .rightParen :: _ | .percent :: _ =>
      rw [run_chain_stay limit fun op vs h => by cases h]
      exact .stay hc hus

end Loops

/-! ## The calls -/

section Calls

variable {ts : List Token} {depth rounds : Nat} (limit : Float)

/-- After a phrase a loop has fewer tokens left than there are. -/
theorem Cursor.Within.length_sub_lt {least : Nat} {c : Cursor} (hc : c.Within ts (least + 1) depth)
    (hrounds : ts.length ≤ rounds) : ts.length - c.pos < rounds := by
  have := hc.least_le
  have := hc.pos_le
  omega

theorem Follows.binary {m : Descent Float} {read : Reader} (level : Nat)
    (hrounds : ts.length ≤ rounds) (ho : Follows ts depth m read) :
    Follows ts depth (do let x ← m; operators limit ts level m rounds x)
      (Evaluator.binary limit level read) := by
  intro c hdepth hpeak
  rw [run_binary]
  exact (ho c hdepth hpeak).bind fun x _ hc =>
    tracks_operators limit ho x hc (hc.length_sub_lt hrounds)

theorem Follows.factor {m : Descent Float} {group : Reader} (hrounds : ts.length ≤ rounds)
    (hp : Follows ts depth m (primary limit group)) :
    Follows ts depth (do let x ← m; percentSigns limit ts rounds x)
      (Evaluator.factor limit group) := by
  intro c hdepth hpeak
  rw [run_factor]
  exact (hp c hdepth hpeak).bind fun x _ hc =>
    tracks_percentSigns limit x hc (hc.length_sub_lt hrounds)

theorem tracks_closeGroup {least : Nat} (x : Float) {c : Cursor}
    (hc : c.Within ts least (depth + 1)) :
    Tracks ts least depth (close (x, c.rest ts)) ((closeGroup ts x).runAt c) := by
  have hleave : c.leave.Within ts least depth :=
    ⟨hc.least_le, hc.pos_le, by simp [Cursor.leave, hc.depth_eq], hc.peak_le⟩
  have hrest : c.leave.rest ts = c.rest ts := rfl
  rw [closeGroup, runAt_modify_bind, runAt_advance_bind, hrest]
  match hus : c.rest ts with
  | .rightParen :: us => exact .stay (hleave.next hus) (Cursor.rest_next (hrest.trans hus))
  | [] | .number _ :: _ | .operator _ :: _ | .leftParen :: _ | .percent :: _ =>
    exact .fault hc.peak_le

/-- A number or group is passed as it is read, if nothing is read in a group too many. -/
theorem follows_atom {m : Descent Float} {group : Reader}
    (hfull : maxNesting ≤ depth → group = refuse)
    (hroom : depth < maxNesting → Follows ts (depth + 1) m group) :
    Follows ts depth (atom limit ts m) (primary limit group) := by
  intro c hdepth hpeak
  rw [atom, runAt_advance_bind]
  match hus : c.rest ts with
  | .number text :: us =>
    have hnext : c.next.Within ts (c.pos + 1) depth :=
      ⟨Nat.le_refl _, Cursor.pos_lt_length hus, hdepth, hpeak⟩
    rw [run_primary_number]
    show Tracks ts _ _ _ (runAt (MonadExcept.ofExcept (literal limit text)) c.next)
    rw [runAt_ofExcept]
    cases literal limit text with
    | error e => exact .fault hpeak
    | ok x => exact .stay hnext (Cursor.rest_next hus)
  | .leftParen :: us =>
    rw [run_primary_group]
    show Tracks ts _ _ _ (runAt (if maxNesting ≤ c.depth then _ else _) c.next)
    rw [hdepth]
    by_cases hle : maxNesting ≤ depth
    · rw [if_pos hle, hfull hle]
      exact .fault hpeak
    · have hlt : depth < maxNesting := Nat.not_le.1 hle
      have hpeak' : c.next.enter.peak ≤ maxNesting := by
        show max c.peak (c.depth + 1) ≤ maxNesting
        omega
      rw [if_neg hle, runAt_modify_bind, ← Cursor.rest_next hus]
      refine (hroom hlt c.next.enter (congrArg (· + 1) hdepth) hpeak').bind fun x c' hc' => ?_
      exact tracks_closeGroup x (hc'.mono (Nat.le_succ _))
  | [] | .operator _ :: _ | .rightParen :: _ | .percent :: _ => exact .fault hpeak

end Calls

/-! ## The reader of a call -/

/-- Reads what stands inside a group, where `room` groups may still be opened. -/
def inside (limit : Float) : Nat → Reader
  | 0 => refuse
  | room + 1 => expression limit room

/-- Reads operands joined by operators of the `n` highest precedences. -/
def levels (limit : Float) (group : Reader) : Nat → Reader
  | 0 => factor limit group
  | n + 1 => binary limit (2 - n) (levels limit group n)

namespace Call

/-- The reader of the phrase of a call, where `room` groups may still be opened. -/
def reader (limit : Float) (room : Nat) : Call → Reader
  | .binary level => levels limit (inside limit room) (3 - level)
  | .factor => Evaluator.factor limit (inside limit room)
  | .primary => Evaluator.primary limit (inside limit room)

/-- The most calls that are under way at once in a call, itself among them, where `room` groups
may still be opened.  A group takes five: two for the precedences, one to see that there are no
more, and those of its first factor and primary. -/
def frames (room : Nat) : Call → Nat
  | .binary level => 5 * room + 3 + (3 - level)
  | .factor => 5 * room + 2
  | .primary => 5 * room + 1

theorem reader_binary_of_lt (limit : Float) (room : Nat) {level : Nat} (h : 2 < level) :
    (binary level).reader limit room = factor.reader limit room := by
  have h0 : 3 - level = 0 := Nat.sub_eq_zero_of_le h
  rw [reader, h0]
  rfl

theorem reader_binary_of_le (limit : Float) (room : Nat) {level : Nat} (h : level ≤ 2) :
    (binary level).reader limit room =
      Evaluator.binary limit level ((binary (level + 1)).reader limit room) := by
  have hn : 3 - level = (2 - level) + 1 := Nat.succ_sub h
  have hn' : 3 - (level + 1) = 2 - level := Nat.succ_sub_succ 2 level
  have hlevel : 2 - (2 - level) = level := Nat.sub_sub_self h
  rw [reader, hn, levels, hlevel, reader, hn']

theorem reader_binary_one (limit : Float) (room : Nat) :
    (binary 1).reader limit room = expression limit room := by
  cases room <;> rfl

end Call

/-! ## Descents as a whole -/

/-- A call with frames and rounds enough does what its reader does.  By induction on the frames: a
call leaves one frame fewer to those it makes. -/
theorem follows_exec (limit : Float) {ts : List Token} {depth room rounds frames : Nat}
    {call : Call} (hroom : depth + room = maxNesting) (hrounds : ts.length ≤ rounds)
    (hframes : call.frames room ≤ frames) :
    Follows ts depth (call.exec limit ts rounds frames) (call.reader limit room) := by
  induction frames generalizing depth room call with
  | zero => cases call <;> simp [Call.frames] at hframes
  | succ frames ih =>
    cases call with
    | binary level =>
      simp only [Call.frames] at hframes
      rw [Call.exec]
      by_cases hl : 2 < level
      · rw [if_pos hl, Call.reader_binary_of_lt limit room hl]
        exact ih hroom (by simp only [Call.frames]; omega)
      · rw [if_neg hl, Call.reader_binary_of_le limit room (Nat.not_lt.1 hl)]
        exact .binary limit level hrounds (ih hroom (by simp only [Call.frames]; omega))
    | factor => exact .factor limit hrounds (ih hroom (Nat.le_of_succ_le_succ hframes))
    | primary =>
      refine follows_atom limit (fun hfull => ?_) (fun hlt => ?_)
      · have h0 : room = 0 := by omega
        rw [h0, inside]
      · obtain ⟨k, rfl⟩ : ∃ k, room = k + 1 := ⟨room - 1, by omega⟩
        rw [inside, ← Call.reader_binary_one]
        exact ih (by omega) (by simp only [Call.frames] at hframes ⊢; omega)

theorem Tracks.exists_result {ts : List Token} {least depth : Nat}
    {a : Except EvalError (Float × List Token)} {o : Option (Except EvalError Float × Cursor)}
    (h : Tracks ts least depth a o) :
    ∃ result c, o = some (result, c) ∧ c.peak ≤ maxNesting ∧
      (∀ x, result = .ok x →
        least ≤ c.pos ∧ c.pos ≤ ts.length ∧ c.depth = depth ∧ a = .ok (x, c.rest ts)) ∧
      ∀ e, result = .error e → a = .error e := by
  cases h with
  | value hc =>
    refine ⟨_, _, rfl, hc.peak_le, fun y hy => ?_, fun e he => nomatch he⟩
    cases hy
    exact ⟨hc.least_le, hc.pos_le, hc.depth_eq, rfl⟩
  | fault hc =>
    refine ⟨_, _, rfl, hc, fun y hy => (nomatch hy), fun e he => ?_⟩
    cases he
    rfl

theorem isEmpty_rest {ts : List Token} {c : Cursor} (h : c.pos ≤ ts.length) :
    (c.rest ts).isEmpty ↔ c.pos = ts.length := by
  rw [List.isEmpty_iff, Cursor.rest, List.drop_eq_nil_iff]
  exact ⟨Nat.le_antisymm h, fun heq => Nat.le_of_eq heq.symm⟩

theorem evaluateWithin_eq {frames rounds : Nat} {limit : Float} {ts : List Token}
    (hframes : (Call.binary 1).frames maxNesting ≤ frames) (hrounds : ts.length ≤ rounds) :
    evaluateWithin frames rounds limit ts = some (evaluate limit ts) := by
  have htracks : Tracks ts 1 0 (run (expression limit maxNesting) ts)
      (((Call.binary 1).exec limit ts rounds frames).runAt (.start 0 0)) := by
    have hfollows := follows_exec limit (Nat.zero_add maxNesting) hrounds hframes
    rw [Call.reader_binary_one] at hfollows
    exact hfollows (.start 0 0) rfl (Nat.zero_le _)
  rw [evaluateWithin]
  split
  · next hempty =>
    rw [List.isEmpty_iff.1 hempty]
    rfl
  · rw [evaluate_eq]
    generalize run (expression limit maxNesting) ts = a at htracks ⊢
    generalize ((Call.binary 1).exec limit ts rounds frames).runAt (.start 0 0) = o at htracks ⊢
    cases htracks with
    | value hc =>
      show some (if _ then _ else _) = some (if _ then _ else _)
      simp only [isEmpty_rest hc.pos_le]
    | fault => rfl

/-- From any position, with no more than the allowed groups open, every call comes to a result, and
the counter never goes past the deepest nesting.  The result is what the reader of the call makes
of the tokens that are left; a value leaves the cursor further on, within the tokens, and the
counter as it was.  The loops make no more rounds than there are tokens, and the frames do not
depend on them: five for each group that may be open, and five more, are enough to evaluate any. -/
theorem descent_terminates (limit : Float) (ts : List Token) :
    (∀ (call : Call) (pos depth frames rounds : Nat), depth ≤ maxNesting →
      call.frames (maxNesting - depth) ≤ frames → ts.length ≤ rounds →
      ∃ result c, (call.exec limit ts rounds frames).runAt (.start pos depth) = some (result, c) ∧
        c.peak ≤ maxNesting ∧
        (∀ x, result = .ok x → pos < c.pos ∧ c.pos ≤ ts.length ∧ c.depth = depth ∧
          run (call.reader limit (maxNesting - depth)) (ts.drop pos) = .ok (x, ts.drop c.pos)) ∧
        ∀ e, result = .error e →
          run (call.reader limit (maxNesting - depth)) (ts.drop pos) = .error e) ∧
      ∀ frames rounds, 1285 ≤ frames → ts.length ≤ rounds →
        evaluateWithin frames rounds limit ts = some (evaluate limit ts) := by
  refine ⟨fun call pos depth frames rounds hdepth hframes hrounds => ?_,
    fun frames rounds hframes hrounds => evaluateWithin_eq hframes hrounds⟩
  have hroom : depth + (maxNesting - depth) = maxNesting := Nat.add_sub_cancel' hdepth
  have hfollows := follows_exec limit hroom hrounds hframes
  exact (hfollows (.start pos depth) rfl hdepth).exists_result

/-- With 255 groups open, `((1))` opens one too many, and `(1))` is read up to the last sign. -/
theorem descent_terminates_nested :
    let ts : List Token := [.leftParen, .leftParen, .number "1", .rightParen, .rightParen]
    255 ≤ maxNesting ∧ (Call.binary 1).frames (maxNesting - 255) ≤ 10 ∧ ts.length ≤ 5 ∧
      (∃ c, ((Call.binary 1).exec noLimit ts 5 10).runAt (.start 0 255) =
        some (.error .malformedExpression, c) ∧ c.peak ≤ maxNesting) ∧
      (∃ c, ((Call.binary 1).exec noLimit ts 5 10).runAt (.start 1 255) = some (.ok 1, c) ∧
        c.pos = 4 ∧ c.depth = 255 ∧ c.peak ≤ maxNesting) ∧
      1285 ≤ 1285 ∧ evaluateWithin 1285 5 noLimit ts = some (.ok 1) := by
  intro ts
  have hdepth : 255 ≤ maxNesting := by decide
  have hframes : (Call.binary 1).frames (maxNesting - 255) ≤ 10 := by decide
  have hrounds : ts.length ≤ 5 := by decide
  obtain ⟨hcalls, hevaluate⟩ := descent_terminates noLimit ts
  refine ⟨hdepth, hframes, hrounds, ?_, ?_, Nat.le_refl _, ?_⟩
  · obtain ⟨result, c, hc, hpeak, hok, herror⟩ :=
      hcalls (.binary 1) 0 255 10 5 hdepth hframes hrounds
    have hread : run ((Call.binary 1).reader noLimit (maxNesting - 255)) (ts.drop 0) =
        .error .malformedExpression := by decide +kernel
    cases result with
    | ok x =>
      rw [(hok x rfl).2.2.2] at hread
      cases hread
    | error e =>
      rw [herror e rfl] at hread
      cases hread
      exact ⟨c, hc, hpeak⟩
  · obtain ⟨result, c, hc, hpeak, hok, herror⟩ :=
      hcalls (.binary 1) 1 255 10 5 hdepth hframes hrounds
    have hread : run ((Call.binary 1).reader noLimit (maxNesting - 255)) (ts.drop 1) =
        .ok (1, [.rightParen]) := by decide +kernel
    cases result with
    | ok x =>
      obtain ⟨-, hle, hdepth', hread'⟩ := hok x rfl
      rw [hread'] at hread
      obtain ⟨rfl, hrest⟩ := Prod.mk.inj (Except.ok.inj hread)
      have hlen := congrArg List.length hrest
      rw [List.length_drop] at hlen
      have hpos : c.pos = 4 := by simp [ts] at hle hlen; omega
      exact ⟨c, hc, hpos, hdepth', hpeak⟩
    | error e =>
      rw [herror e rfl] at hread
      cases hread
  · rw [hevaluate 1285 5 (Nat.le_refl _) hrounds]
    decide +kernel

end PocketCalc.Evaluator
