import PocketCalc.Proofs.Evaluation.Grammar

/-!
# What the readers read

A reader is run for the value it reads and the tokens it leaves; `run` forgets the bound that
lets readers recurse, and each reader has its equations in terms of `run`.  Two statements say
what reading amounts to.  In front of tokens that cannot continue it, a tree is read as its
value (`run_expression_tokens`), and what is read is always a tree (`exists_of_run_expression`).
Both go level by level: a chain of operators of one precedence reads right if its operands do.
-/

namespace PocketCalc

/-! ## Results taken apart -/

section Except

variable {α β ε : Type} {a : Except ε α}

theorem bind_eq_ok {f : α → Except ε β} {y : β} :
    (a >>= f) = .ok y ↔ ∃ x, a = .ok x ∧ f x = .ok y := by
  cases a with
  | error e => exact ⟨fun h => (nomatch h), fun ⟨_, h, _⟩ => (nomatch h)⟩
  | ok x =>
    refine ⟨fun h => ⟨x, rfl, h⟩, fun ⟨x', h, hf⟩ => ?_⟩
    cases h
    exact hf

theorem bind_eq_error {f : α → Except ε β} {e : ε} :
    (a >>= f) = .error e ↔ a = .error e ∨ ∃ x, a = .ok x ∧ f x = .error e := by
  cases a with
  | error e' =>
    refine ⟨fun h => Or.inl (congrArg Except.error (Except.error.inj h)), fun h => ?_⟩
    rcases h with h | ⟨_, h, _⟩
    · exact congrArg Except.error (Except.error.inj h)
    · cases h
  | ok x =>
    refine ⟨fun h => Or.inr ⟨x, rfl, h⟩, fun h => ?_⟩
    rcases h with h | ⟨x', h, hf⟩
    · cases h
    · cases h
      exact hf

theorem map_eq_ok {f : α → β} {y : β} : a.map f = .ok y ↔ ∃ x, a = .ok x ∧ f x = y := by
  cases a with
  | error e => exact ⟨fun h => (nomatch h), fun ⟨_, h, _⟩ => (nomatch h)⟩
  | ok x =>
    refine ⟨fun h => ⟨x, rfl, Except.ok.inj h⟩, fun ⟨x', h, hf⟩ => ?_⟩
    cases h
    exact congrArg Except.ok hf

end Except

namespace Evaluator

/-- The value that a reader reads at the front of `ts`, and the tokens it leaves. -/
def run (read : Reader) (ts : List Token) : Except EvalError (Float × List Token) :=
  (read ts).map fun r => (r.value, r.rest)

/-! ## The equations of the readers -/

/-- A reading that goes on where another one ended leaves the same tokens. -/
theorem map_after {ts us : List Token} (h : us.length ≤ ts.length)
    (a : Except EvalError (Reading us)) :
    (do let s ← a; return s.after h : Except EvalError (Reading ts)).map
      (fun r => (r.value, r.rest)) = a.map fun r => (r.value, r.rest) := by
  cases a <;> rfl

/-- Takes the closing parenthesis of a group off the tokens that are left. -/
def close : Float × List Token → Except EvalError (Float × List Token)
  | (x, .rightParen :: rest) => .ok (x, rest)
  | _ => .error .malformedExpression

theorem run_primary_number (limit : Float) (group : Reader) (text : String) (rest : List Token) :
    run (primary limit group) (.number text :: rest) = (literal limit text).map (·, rest) := by
  simp only [run, primary]
  cases literal limit text <;> rfl

theorem run_primary_group (limit : Float) (group : Reader) (ts : List Token) :
    run (primary limit group) (.leftParen :: ts) = run group ts >>= close := by
  simp only [run, primary]
  cases group ts with
  | error f => rfl
  | ok r =>
    obtain ⟨x, rest, hr⟩ := r
    match rest with
    | .rightParen :: rest' => rfl
    | [] | .number _ :: _ | .operator _ :: _ | .leftParen :: _ | .percent :: _ => rfl

theorem run_percents_percent (limit x : Float) (ts : List Token) :
    run (percents limit x) (.percent :: ts) =
      check limit (x / 100) >>= fun y => run (percents limit y) ts := by
  simp only [run, percents]
  cases check limit (x / 100) with
  | error f => rfl
  | ok y => exact map_after _ _

theorem run_factor (limit : Float) (group : Reader) (ts : List Token) :
    run (factor limit group) ts =
      run (primary limit group) ts >>= fun r => run (percents limit r.1) r.2 := by
  simp only [run, factor]
  cases primary limit group ts with
  | error f => rfl
  | ok r => exact map_after _ _

theorem run_chain_operator {limit : Float} {level : Nat} {op : Operator}
    (hop : op.precedence = level) (operand : Reader) (x : Float) (ts : List Token) :
    run (chain limit level operand x) (.operator op :: ts) =
      run operand ts >>= fun r => apply limit op x r.1 >>= fun y =>
        run (chain limit level operand y) r.2 := by
  simp only [run]
  rw [chain, if_pos hop]
  cases operand ts with
  | error f => rfl
  | ok r =>
    show Except.map _ (apply limit op x r.value >>= _) = (apply limit op x r.value >>= _)
    cases apply limit op x r.value with
    | error f => rfl
    | ok y => exact map_after _ _

theorem run_binary (limit : Float) (level : Nat) (operand : Reader) (ts : List Token) :
    run (binary limit level operand) ts =
      run operand ts >>= fun r => run (chain limit level operand r.1) r.2 := by
  simp only [run, binary]
  cases operand ts with
  | error f => rfl
  | ok r => exact map_after _ _

/-! ## Trees in front of other tokens -/

/-- The tokens `rest` cannot go on an operand that holds together at `level`: they begin with
no percent sign and no operator of that precedence or a higher one. -/
def OperandEnds (level : Nat) : List Token → Prop
  | .percent :: _ => False
  | .operator op :: _ => op.precedence < level
  | _ => True

/-- The tree `e` can be read at `level` by a reader for groups less than `depth` deep. -/
structure Fits (depth level : Nat) (e : Expression) : Prop where
  wellFormed : e.WellFormed
  level_le : level ≤ e.level
  nesting_lt : e.nesting < depth

/-- The tokens `ts` begin with the tree `e`, of value `x`, and `rest` stands after it. -/
structure Front (limit : Float) (depth level : Nat) (e : Expression) (x : Float)
    (ts rest : List Token) : Prop where
  fits : Fits depth level e
  readable : e.Readable
  value_eq : e.value limit = .ok x
  tokens_eq : ts = e.tokens ++ rest

/-- `read` reads the trees that fit `depth` and `level`, and nothing else. -/
structure Reads (limit : Float) (depth level : Nat) (read : Reader) : Prop where
  complete {e : Expression} {rest : List Token} (he : Fits depth level e)
    (hrest : OperandEnds level rest) : run read (e.tokens ++ rest) = (e.value limit).map (·, rest)
  sound {ts rest : List Token} {x : Float} (h : run read ts = .ok (x, rest)) :
    ∃ e, Front limit depth level e x ts rest ∧ OperandEnds level rest

theorem OperandEnds.mono {rest : List Token} {k m : Nat} (h : OperandEnds k rest) (hkm : k ≤ m) :
    OperandEnds m rest := by
  match rest with
  | .operator op :: _ => exact Nat.lt_of_lt_of_le h hkm
  | [] | .number _ :: _ | .leftParen :: _ | .rightParen :: _ => trivial

/-- What ends a tighter operand but not one of `level` is an operator of that precedence. -/
theorem exists_operator_of_not_ends {level : Nat} {us : List Token}
    (hus : OperandEnds (level + 1) us) (hends : ¬ OperandEnds level us) :
    ∃ op vs, us = .operator op :: vs ∧ op.precedence = level := by
  match us with
  | [] | .number _ :: _ | .leftParen :: _ | .rightParen :: _ => exact absurd trivial hends
  | .percent :: _ => exact absurd hus id
  | .operator op :: vs =>
    exact ⟨op, vs, rfl, Nat.le_antisymm (Nat.le_of_lt_succ hus) (Nat.not_lt.1 hends)⟩

theorem Fits.mono {depth k m : Nat} {e : Expression} (h : Fits depth m e) (hkm : k ≤ m) :
    Fits depth k e := ⟨h.wellFormed, Nat.le_trans hkm h.level_le, h.nesting_lt⟩

theorem run_percents_of_ends {limit x : Float} {level : Nat} {rest : List Token}
    (h : OperandEnds level rest) : run (percents limit x) rest = .ok (x, rest) := by
  match rest with
  | .operator op :: _ => rfl
  | [] | .number _ :: _ | .leftParen :: _ | .rightParen :: _ => rfl

theorem run_chain_of_ends {limit x : Float} {level : Nat} {operand : Reader} {rest : List Token}
    (h : OperandEnds level rest) : run (chain limit level operand x) rest = .ok (x, rest) := by
  match rest with
  | .operator op :: _ =>
    simp only [run]
    rw [chain, if_neg (Nat.ne_of_lt h)]
    rfl
  | [] | .number _ :: _ | .leftParen :: _ | .rightParen :: _ =>
    simp only [run]
    rw [chain]
    · rfl
    · intro op rest' h'
      cases h'

/-! ## Factors -/

/-- A number that passes its check is a tree in front of the tokens after it. -/
theorem front_number {limit : Float} {text : String} {x : Float}
    (h : literal limit text = .ok x) (depth : Nat) {level : Nat} (hl : level ≤ 3)
    (rest : List Token) : Front limit (depth + 1) level (.number text) x (.number text :: rest) rest
    where
  fits := ⟨trivial, hl, Nat.succ_pos depth⟩
  readable := by
    show (Literal.read? text.toList).isSome
    unfold literal at h
    split at h
    · next hread => rw [hread]; rfl
    · cases h
  value_eq := h
  tokens_eq := rfl

theorem reads_refuse (limit : Float) (level : Nat) : Reads limit 0 level refuse where
  complete he _ := absurd he.nesting_lt (Nat.not_lt_zero _)
  sound h := by cases h

section Factor

variable {limit : Float} {depth : Nat} {group : Reader} (hg : Reads limit depth 1 group)
include hg

/-- The tokens of a factor are read as its value, and percent signs after them follow. -/
theorem run_factor_tokens {e : Expression} (he : Fits (depth + 1) 3 e) (rest : List Token) :
    run (factor limit group) (e.tokens ++ rest) =
      e.value limit >>= fun x => run (percents limit x) rest := by
  induction e generalizing rest with
  | number text =>
    rw [run_factor]
    show run (primary limit group) (.number text :: rest) >>= _ = literal limit text >>= _
    rw [run_primary_number]
    cases literal limit text <;> rfl
  | group inner ih =>
    have hin : Fits depth 1 inner :=
      ⟨he.wellFormed, inner.one_le_level, Nat.lt_of_succ_lt_succ he.nesting_lt⟩
    have htok : (Expression.group inner).tokens ++ rest =
        .leftParen :: (inner.tokens ++ .rightParen :: rest) := by
      simp [Expression.tokens]
    have hends : OperandEnds 1 (.rightParen :: rest) := trivial
    rw [run_factor, htok, run_primary_group, hg.complete hin hends]
    show _ = inner.value limit >>= _
    cases inner.value limit <;> rfl
  | percent operand ih =>
    have hop : Fits (depth + 1) 3 operand :=
      ⟨he.wellFormed.1, he.wellFormed.2, he.nesting_lt⟩
    have htok : (Expression.percent operand).tokens ++ rest =
        operand.tokens ++ .percent :: rest := by
      simp [Expression.tokens]
    rw [htok, ih hop]
    simp only [run_percents_percent, Expression.value, bind_assoc]
  | binary op l r =>
    have := he.level_le
    have := op.precedence_le_two
    simp only [Expression.level] at *
    omega

theorem exists_of_run_primary {ts rest : List Token} {x : Float}
    (h : run (primary limit group) ts = .ok (x, rest)) :
    ∃ e, Front limit (depth + 1) 3 e x ts rest := by
  match ts with
  | .number text :: us =>
    rw [run_primary_number] at h
    obtain ⟨y, hlit, h⟩ := map_eq_ok.1 h
    cases h
    exact ⟨.number text, front_number hlit depth (Nat.le_refl 3) _⟩
  | .leftParen :: us =>
    rw [run_primary_group] at h
    obtain ⟨⟨y, vs⟩, hrun, h⟩ := bind_eq_ok.1 h
    obtain ⟨e, he, -⟩ := hg.sound hrun
    match vs with
    | .rightParen :: ws =>
      cases h
      have hfits : Fits (depth + 1) 3 (.group e) :=
        ⟨he.fits.wellFormed, Nat.le_refl 3, Nat.succ_lt_succ he.fits.nesting_lt⟩
      refine ⟨.group e, hfits, he.readable, he.value_eq, ?_⟩
      rw [he.tokens_eq]
      simp [Expression.tokens]
    | [] | .number _ :: _ | .operator _ :: _ | .leftParen :: _ | .percent :: _ => cases h
  | [] | .operator _ :: _ | .rightParen :: _ | .percent :: _ => cases h

omit hg in
/-- A factor and a percent sign after it make a larger factor. -/
theorem front_percent {e : Expression} {x y : Float} {ts us : List Token}
    (he : Front limit depth 3 e x ts (.percent :: us)) (hy : check limit (x / 100) = .ok y) :
    Front limit depth 3 (.percent e) y ts us where
  fits := ⟨⟨he.fits.wellFormed, he.fits.level_le⟩, Nat.le_refl 3, he.fits.nesting_lt⟩
  readable := he.readable
  value_eq := by
    show e.value limit >>= _ = _
    rw [he.value_eq]
    exact hy
  tokens_eq := by
    rw [he.tokens_eq]
    simp [Expression.tokens]

omit hg in
/-- The percent signs after a factor make it a larger factor. -/
theorem exists_of_run_percents {e : Expression} {x y : Float} {ts us rest : List Token}
    (he : Front limit depth 3 e x ts us) (h : run (percents limit x) us = .ok (y, rest)) :
    ∃ e', Front limit depth 3 e' y ts rest ∧ OperandEnds 3 rest := by
  induction us generalizing e x with
  | nil =>
    cases h
    exact ⟨e, he, trivial⟩
  | cons t us ih =>
    cases t with
    | percent =>
      rw [run_percents_percent] at h
      obtain ⟨z, hz, h⟩ := bind_eq_ok.1 h
      exact ih (front_percent he hz) h
    | operator op =>
      cases h
      exact ⟨e, he, Nat.lt_succ_of_le op.precedence_le_two⟩
    | number _ | leftParen | rightParen =>
      cases h
      exact ⟨e, he, trivial⟩

theorem reads_factor : Reads limit (depth + 1) 3 (factor limit group) where
  complete {e rest} he hrest := by
    rw [run_factor_tokens hg he]
    cases e.value limit with
    | error f => rfl
    | ok x => exact run_percents_of_ends hrest
  sound {ts rest x} h := by
    rw [run_factor] at h
    obtain ⟨⟨y, us⟩, hp, h⟩ := bind_eq_ok.1 h
    obtain ⟨e, he⟩ := exists_of_run_primary hg hp
    exact exists_of_run_percents he h

end Factor

/-! ## Chains of operators -/

section Binary

variable {limit : Float} {depth level : Nat} {operand : Reader}
  (ho : Reads limit depth (level + 1) operand)
include ho

theorem run_binary_tokens_of_lt {e : Expression} (he : Fits depth (level + 1) e)
    {rest : List Token} (hrest : OperandEnds (level + 1) rest) :
    run (binary limit level operand) (e.tokens ++ rest) =
      e.value limit >>= fun x => run (chain limit level operand x) rest := by
  rw [run_binary, ho.complete he hrest]
  cases e.value limit <;> rfl

/-- The tokens of a tree at `level` are read as its value, and the operators of this
precedence after them follow. -/
theorem run_binary_tokens (hl : level ≤ 2) {e : Expression} (he : Fits depth level e)
    {rest : List Token} (hrest : OperandEnds (level + 1) rest) :
    run (binary limit level operand) (e.tokens ++ rest) =
      e.value limit >>= fun x => run (chain limit level operand x) rest := by
  induction e generalizing rest with
  | number | group | percent =>
    exact run_binary_tokens_of_lt ho ⟨he.wellFormed, Nat.succ_le_succ hl, he.nesting_lt⟩ hrest
  | binary op l r ihl _ =>
    rcases Nat.lt_or_eq_of_le he.level_le with hlt | heq
    · exact run_binary_tokens_of_lt ho ⟨he.wellFormed, hlt, he.nesting_lt⟩ hrest
    · obtain ⟨⟨hwl, hll⟩, hwr, hlr⟩ := he.wellFormed
      have hop : op.precedence = level := heq.symm
      have hnest := Nat.max_lt.1 he.nesting_lt
      have hfl : Fits depth level l := ⟨hwl, hop ▸ hll, hnest.1⟩
      have hfr : Fits depth (level + 1) r := ⟨hwr, hop ▸ hlr, hnest.2⟩
      have htok : (Expression.binary op l r).tokens ++ rest =
          l.tokens ++ .operator op :: (r.tokens ++ rest) := by
        simp [Expression.tokens]
      have hends : OperandEnds (level + 1) (.operator op :: (r.tokens ++ rest)) :=
        Nat.lt_succ_of_le (Nat.le_of_eq hop)
      rw [htok, ihl hfl hends]
      simp only [Expression.value, run_chain_operator hop, ho.complete hfr hrest, bind_assoc]
      cases l.value limit with
      | error f => rfl
      | ok x => cases r.value limit <;> rfl

omit ho in
/-- A tree at `level`, an operator of this precedence and an operand of it make a larger
tree. -/
theorem front_binary {e r : Expression} {op : Operator} {x y z : Float}
    {ts vs ws : List Token} (hop : op.precedence = level)
    (he : Front limit depth level e x ts (.operator op :: vs))
    (hr : Front limit depth (level + 1) r y vs ws) (hz : apply limit op x y = .ok z) :
    Front limit depth level (.binary op e r) z ts ws where
  fits := by
    subst hop
    exact ⟨⟨⟨he.fits.wellFormed, he.fits.level_le⟩, hr.fits.wellFormed, hr.fits.level_le⟩,
      Nat.le_refl _, Nat.max_lt.2 ⟨he.fits.nesting_lt, hr.fits.nesting_lt⟩⟩
  readable := ⟨he.readable, hr.readable⟩
  value_eq := by
    show (e.value limit >>= fun x => r.value limit >>= fun y => apply limit op x y) = _
    rw [he.value_eq, hr.value_eq]
    exact hz
  tokens_eq := by
    rw [he.tokens_eq, hr.tokens_eq]
    simp [Expression.tokens]

/-- The operators of one precedence after a tree make it a larger tree. -/
theorem exists_of_run_chain {e : Expression} {x y : Float} {ts us rest : List Token}
    (he : Front limit depth level e x ts us) (hus : OperandEnds (level + 1) us)
    (h : run (chain limit level operand x) us = .ok (y, rest)) :
    ∃ e', Front limit depth level e' y ts rest ∧ OperandEnds level rest := by
  induction hn : us.length using Nat.strongRecOn generalizing e x us with
  | ind n ih =>
    by_cases hends : OperandEnds level us
    · rw [run_chain_of_ends hends] at h
      cases h
      exact ⟨e, he, hends⟩
    · obtain ⟨op, vs, rfl, hop⟩ := exists_operator_of_not_ends hus hends
      rw [run_chain_operator hop] at h
      obtain ⟨⟨z, ws⟩, hr, h⟩ := bind_eq_ok.1 h
      obtain ⟨w, hw, h⟩ := bind_eq_ok.1 h
      obtain ⟨r, hfr, hws⟩ := ho.sound hr
      have hlen : ws.length < n := by
        rw [← hn, hfr.tokens_eq]
        simp only [List.length_cons, List.length_append]
        omega
      exact ih ws.length hlen (front_binary hop he hfr hw) hws h rfl

theorem reads_binary (hl : level ≤ 2) : Reads limit depth level (binary limit level operand) where
  complete {e rest} he hrest := by
    rw [run_binary_tokens ho hl he (hrest.mono (Nat.le_succ level))]
    cases e.value limit with
    | error f => rfl
    | ok x => exact run_chain_of_ends hrest
  sound {ts rest x} h := by
    rw [run_binary] at h
    obtain ⟨⟨y, us⟩, hr, h⟩ := bind_eq_ok.1 h
    obtain ⟨e, he, hus⟩ := ho.sound hr
    have hfront : Front limit depth level e y ts us :=
      ⟨he.fits.mono (Nat.le_succ level), he.readable, he.value_eq, he.tokens_eq⟩
    exact exists_of_run_chain ho hfront hus h

end Binary

/-! ## Expressions -/

theorem reads_sums {limit : Float} {depth : Nat} {group : Reader}
    (hg : Reads limit depth 1 group) : Reads limit (depth + 1) 1 (sums limit group) :=
  reads_binary (reads_binary (reads_factor hg) (Nat.le_refl 2)) (Nat.le_succ 1)

/-- A reader with room for `room` groups reads the trees that nest no deeper. -/
theorem reads_expression (limit : Float) (room : Nat) :
    Reads limit (room + 1) 1 (expression limit room) := by
  induction room with
  | zero => exact reads_sums (reads_refuse limit 1)
  | succ room ih => exact reads_sums ih

/-! ## Whole expressions -/

theorem evaluate_eq (limit : Float) (ts : List Token) :
    evaluate limit ts = run (expression limit maxNesting) ts >>= fun r =>
      if r.2.isEmpty then .ok r.1 else .error .malformedExpression := by
  simp only [evaluate, run]
  cases expression limit maxNesting ts <;> rfl

/-- A tree that does not nest too deep is evaluated from its tokens. -/
theorem evaluate_tokens (limit : Float) {e : Expression} (he : e.WellFormed)
    (hn : e.nesting ≤ maxNesting) : evaluate limit e.tokens = e.value limit := by
  have hfits : Fits (maxNesting + 1) 1 e := ⟨he, e.one_le_level, Nat.lt_succ_of_le hn⟩
  have hends : OperandEnds 1 [] := trivial
  have hrun := (reads_expression limit maxNesting).complete hfits hends
  rw [List.append_nil] at hrun
  rw [evaluate_eq, hrun]
  cases e.value limit <;> rfl

/-- What has a value is a sentence. -/
theorem exists_sentence_of_evaluate {limit x : Float} {ts : List Token}
    (h : evaluate limit ts = .ok x) : ∃ e, Sentence ts e ∧ e.value limit = .ok x := by
  rw [evaluate_eq] at h
  obtain ⟨⟨y, rest⟩, hr, h⟩ := bind_eq_ok.1 h
  obtain ⟨e, he, -⟩ := (reads_expression limit maxNesting).sound hr
  split at h
  · next hempty =>
    cases h
    have hrest : rest = [] := List.isEmpty_iff.1 hempty
    have htok : e.tokens = ts := by rw [he.tokens_eq, hrest, List.append_nil]
    exact ⟨e, ⟨derives_iff.2 ⟨he.fits.wellFormed, htok⟩, Nat.le_of_lt_succ he.fits.nesting_lt,
      he.readable⟩, he.value_eq⟩
  · cases h

end Evaluator
end PocketCalc
