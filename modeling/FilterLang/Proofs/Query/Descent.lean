import FilterLang.Proofs.Filter.RoundTrip
import FilterLang.Proofs.Query.Stops

/-!
# The parser as a recursive descent

The readers of the grammar recurse on the levels of nesting that are left.  A parser that counts the open
levels instead, raises the count in front of an operand and lowers it behind it does the same thing, and here it
is written out as `Descent`.  Whatever such a parser could do wrong is a way for it to end: giving back a level
that is not open, going round a chain without having taken a token, or having more calls active than allowed.

`Descent.parse_eq` says that none of this happens and that the two parsers agree, in what they return and in
where they stand afterwards.  A parenthesis costs a level and four calls, a `not` a level and one call, and a
further operand of a chain a level and no call, so `4 * (n + 1)` calls are enough for `n` levels.  Fewer are not
enough for a text of parentheses only (`Descent.exhausted_of_groups`).
-/

namespace FilterLang

/-- Why a descent ended without a filter. -/
inductive Halt where
  /-- The query is at fault. -/
  | error (e : ParseError)
  /-- More levels were to be given back than are open. -/
  | underflow
  /-- A chain was to go on without having taken a token. -/
  | stalled
  /-- More calls were to be active than allowed. -/
  | exhausted

/-- A step of a parser that counts its open levels. -/
abbrev Descent := EStateM Halt Parser

namespace Descent

/-! ### Steps -/

/-- The token at the front. -/
def current : Descent Token := return (← get).stream.current.token

/-- Past the token at the front. -/
def advance : Descent Unit := fun parser =>
  match parser.stream.advance with
  | (.ok stream, _) => .ok () { parser with stream }
  | (.error e, stream) => .error (.error (.lex e)) { parser with stream }

/-- One more level. -/
def enter : Descent Unit := fun parser =>
  if parser.depth < parser.maxNesting then .ok () { parser with depth := parser.depth + 1 }
  else .error (.error (.nestingTooDeep parser.maxNesting parser.stream.current.position)) parser

/-- A number of levels given back. -/
def leave (levels : Nat) : Descent Unit := fun parser =>
  if levels ≤ parser.depth then .ok () { parser with depth := parser.depth - levels }
  else .error .underflow parser

/-- The token at the front is not what the grammar asks for. -/
def refuse {α : Type} (cause : SyntaxCause) : Descent α := fun parser =>
  .error (.error (parser.refuse cause)) parser

/-- A comparison.  It takes no level. -/
def comparison : Descent Filter := fun parser =>
  match Grammar.comparison parser.room parser.stream with
  | .ok (t, stream) => .ok t { parser with stream }
  | .error stop => .error (.error stop.error) { parser with stream := stop.stream }

/-- The end of a group, which gives its level back. -/
def close (inner : Filter) : Descent Filter := do
  if (← current) = .rparen then
    advance
    leave 1
    return inner
  else refuse .expectedClose

/-- A further operand of a chain: its level, the connective, and what follows. -/
def further (part : Descent Filter) : Descent Filter := do
  enter
  advance
  part

/-- The loop of a chain from a parser on.  The operands keep their levels until the chain ends, and the loop
goes round again only if it has taken a token. -/
def chainFrom (kind : Connective) (part : Descent Filter) (folds : Nat) (left : Filter) (parser : Parser) :
    EStateM.Result Halt Parser Filter :=
  if parser.stream.current.token = kind.token then
    match (further part).run parser with
    | .ok right next =>
      if next.stream.ahead < parser.stream.ahead then
        chainFrom kind part (folds + 1) (.logical kind left right) next
      else .error .stalled next
    | .error halt next => .error halt next
  else
    match (leave folds).run parser with
    | .ok _ next => .ok left next
    | .error halt next => .error halt next
termination_by parser.stream.ahead

/-- The further operands of a chain. -/
def chain (kind : Connective) (part : Descent Filter) (left : Filter) : Descent Filter :=
  fun parser => chainFrom kind part 0 left parser

/-! ### Calls

The number is how many calls of the four may be active at once. -/

mutual

/-- Alternatives. -/
def disjunction : Nat → Descent Filter
  | 0 => throw .exhausted
  | calls + 1 => do
    let first ← conjunction calls
    chain .or (conjunction calls) first

/-- Conjuncts. -/
def conjunction : Nat → Descent Filter
  | 0 => throw .exhausted
  | calls + 1 => do
    let first ← negation calls
    chain .and (negation calls) first

/-- An operand, negated or not. -/
def negation : Nat → Descent Filter
  | 0 => throw .exhausted
  | calls + 1 => do
    if (← current) = .not then
      enter
      advance
      let child ← negation calls
      leave 1
      return .not child
    else term calls

/-- A group or a comparison. -/
def term : Nat → Descent Filter
  | 0 => throw .exhausted
  | calls + 1 => do
    if (← current) = .lparen then
      enter
      advance
      let inner ← disjunction calls
      close inner
    else comparison

end

/-- A filter that takes all the tokens. -/
def parse (calls : Nat) : Descent Filter := do
  if (← current) = .eof then refuse .emptyQuery
  else
    let t ← disjunction calls
    if (← current) = .eof then return t else refuse .trailingToken

end Descent

/-! ### Outcomes as results of a descent -/

namespace Parser

variable {α β : Type}

/-- A result and the parser behind it. -/
def answered : Except ParseError α × Parser → EStateM.Result Halt Parser α
  | (.ok a, parser) => .ok a parser
  | (.error e, parser) => .error (.error e) parser

/-- What follows an attempt of the parser, unless the attempt stops. -/
def attempt (parser : Parser) (x : Except ParseStop α) (f : α → EStateM.Result Halt Parser β) :
    EStateM.Result Halt Parser β :=
  match x with
  | .ok a => f a
  | .error stop => .error (.error stop.error) (parser.stopped stop)

/-- The parser behind a filter, with a number of levels given back. -/
def settle (parser : Parser) (levels : Nat) (x : Grammar.Outcome) : EStateM.Result Halt Parser Filter :=
  parser.attempt x fun read =>
    .ok read.1 { parser with stream := read.2, depth := parser.depth - levels }

/-- The parser behind a token that opens a level. -/
def entered (parser : Parser) (stream : TokenStream) : Parser :=
  { parser with stream, depth := parser.depth + 1 }

@[simp] lemma entered_stream (parser : Parser) (s : TokenStream) : (parser.entered s).stream = s := rfl

lemma attempt_bind (parser : Parser) (x : Except ParseStop α) {γ : Type} (k : α → Except ParseStop γ)
    (f : γ → EStateM.Result Halt Parser β) :
    parser.attempt (x >>= k) f = parser.attempt x fun a => parser.attempt (k a) f := by
  cases x <;> rfl

lemma attempt_congr {parser : Parser} {x : Except ParseStop α} {f g : α → EStateM.Result Halt Parser β}
    (h : ∀ a, x = .ok a → f a = g a) : parser.attempt x f = parser.attempt x g := by
  cases x with
  | ok a => exact h a rfl
  | error stop => rfl

lemma answered_expression (parser : Parser) :
    answered parser.expression =
      parser.settle 0 (Grammar.filter parser.maxNesting parser.room parser.stream) := by
  rw [expression]
  cases Grammar.filter parser.maxNesting parser.room parser.stream <;> rfl

section

variable {parser : Parser} {room : Nat} (h : parser.room = room + 1)

include h

lemma room_entered (stream : TokenStream) : (parser.entered stream).room = room := by
  simp only [Parser.room, entered] at h ⊢
  omega

/-- An attempt that stops with one level taken. -/
lemma stopped_eq_entered (e : ParseError) (stream : TokenStream) :
    parser.stopped ⟨e, stream, room⟩ = parser.entered stream := by
  rw [stopped, h, Nat.add_sub_cancel_left]
  rfl

/-- A level that has been opened is one of those that are open when an attempt stops. -/
lemma attempt_entered {s : TokenStream} (stream : TokenStream) {at₁ : α → TokenStream}
    {x : Except ParseStop α} (hx : Grammar.Keeps (· ≤ room) s at₁ x)
    (f : α → EStateM.Result Halt Parser β) :
    (parser.entered stream).attempt x f = parser.attempt x f := by
  cases x with
  | ok a => rfl
  | error stop =>
    have hle : stop.room ≤ room := hx.2
    have hdepth : parser.depth + 1 + (room - stop.room) = parser.depth + (room + 1 - stop.room) := by
      omega
    simp only [attempt, stopped, room_entered h]
    rw [h, ← hdepth]
    rfl

lemma settle_entered {s : TokenStream} (stream : TokenStream) (levels : Nat) {x : Grammar.Outcome}
    (hx : Grammar.Keeps (· ≤ room) s Prod.snd x) :
    (parser.entered stream).settle (levels + 1) x = parser.settle levels x := by
  have hdepth : parser.depth + 1 - (levels + 1) = parser.depth - levels := Nat.add_sub_add_right _ _ _
  rw [settle, attempt_entered h stream hx, settle]
  simp only [entered, hdepth]

end

end Parser

namespace Descent

variable {α β : Type} {parser : Parser} {room : Nat}

/-! ### Single steps agree -/

lemma run_current_bind (f : Token → Descent α) (parser : Parser) :
    (current >>= f).run parser = (f parser.stream.current.token).run parser := rfl

lemma run_advance_bind (h : parser.room = room + 1) (f : Descent α) (s : TokenStream) :
    (do advance; f).run (parser.entered s) =
      parser.attempt (Grammar.advance room s) fun s => f.run (parser.entered s) := by
  rw [EStateM.run_bind]
  simp only [EStateM.run, advance, Parser.entered, Grammar.advance]
  rcases s.advance with ⟨e | stream, next⟩
  · simp only [Parser.attempt, Parser.stopped_eq_entered h]
    rfl
  · rfl

/-- A token that opens a level, and what follows. -/
lemma run_open (h : parser.room = room + 1) (f : Descent α) :
    (do enter; advance; f).run parser =
      parser.attempt (Grammar.advance room parser.stream) fun s => f.run (parser.entered s) := by
  have hlt : parser.depth < parser.maxNesting := by
    rw [Parser.room] at h
    omega
  have henter : enter.run parser = .ok () (parser.entered parser.stream) := if_pos hlt
  rw [EStateM.run_bind, henter]
  exact run_advance_bind h f parser.stream

/-- No level is left to open. -/
lemma run_enter_full {γ : Type} (h : parser.room = 0) (f : Unit → Descent α)
    (g : γ → EStateM.Result Halt Parser α) :
    (enter >>= f).run parser = parser.attempt (Grammar.tooDeep parser.maxNesting parser.stream) g := by
  have hle : ¬ parser.depth < parser.maxNesting := by
    rw [Parser.room] at h
    omega
  have henter : enter.run parser =
      .error (.error (.nestingTooDeep parser.maxNesting parser.stream.current.position)) parser := if_neg hle
  rw [EStateM.run_bind, henter]
  simp only [Grammar.tooDeep, Parser.attempt, Parser.stopped, h]
  rfl

lemma run_leave (parser : Parser) (s : TokenStream) :
    (leave 1).run (parser.entered s) = .ok () { parser with stream := s } := by
  have hle : 1 ≤ (parser.entered s).depth := Nat.le_add_left 1 parser.depth
  rw [EStateM.run, leave, if_pos hle]
  rfl

lemma run_refuse (h : parser.room = room + 1) (cause : SyntaxCause) (s : TokenStream) {γ : Type}
    (f : γ → EStateM.Result Halt Parser α) :
    (refuse cause : Descent α).run (parser.entered s) = parser.attempt (Grammar.refuse room s cause) f := by
  simp only [Grammar.refuse, Parser.attempt, Parser.stopped_eq_entered h]
  rfl

lemma run_comparison (parser : Parser) :
    comparison.run parser = parser.settle 0 (Grammar.comparison parser.room parser.stream) := by
  have hkeeps := Grammar.comparison_keeps parser.room parser.stream
  simp only [EStateM.run, comparison]
  cases hread : Grammar.comparison parser.room parser.stream with
  | ok read => rfl
  | error stop =>
    rw [hread] at hkeeps
    have hroom : stop.room = parser.room := hkeeps.2
    simp only [Parser.settle, Parser.attempt, Parser.stopped, hroom, Nat.sub_self]
    rfl

/-- What follows a step that agrees with an outcome. -/
lemma run_bind_of_settle {x : Descent Filter} {levels : Nat} {outcome : Grammar.Outcome}
    (h : x.run parser = parser.settle levels outcome) (f : Filter → Descent α) :
    (x >>= f).run parser = parser.attempt outcome fun read =>
      (f read.1).run { parser with stream := read.2, depth := parser.depth - levels } := by
  rw [EStateM.run_bind, h, Parser.settle]
  cases outcome <;> rfl

/-- What follows a step behind a token that opened a level. -/
lemma run_bind_entered (h : parser.room = room + 1) {s s' : TokenStream} {x : Descent Filter}
    {outcome : Grammar.Outcome} (hx : x.run (parser.entered s) = (parser.entered s).settle 0 outcome)
    (hkeeps : Grammar.Keeps (· ≤ room) s' Prod.snd outcome) (f : Filter → Descent α) :
    (x >>= f).run (parser.entered s) =
      parser.attempt outcome fun read => (f read.1).run (parser.entered read.2) := by
  rw [run_bind_of_settle hx, Parser.attempt_entered h s hkeeps]
  rfl

/-! ### Chains agree -/

/-- The loop of a chain, as the grammar has it: what it does at each token and with each number of levels, what
it leaves behind, and that its operands take tokens. -/
structure Loops (kind : Connective) (part : Nat → Nat → TokenStream → Grammar.Outcome)
    (loop : Nat → Nat → Filter → TokenStream → Grammar.Outcome) : Prop where
  stop : ∀ {ceiling room : Nat} {left : Filter} {s : TokenStream}, s.current.token ≠ kind.token →
    loop ceiling room left s = .ok (left, s)
  zero : ∀ {ceiling : Nat} {left : Filter} {s : TokenStream}, s.current.token = kind.token →
    loop ceiling 0 left s = Grammar.tooDeep ceiling s
  succ : ∀ {ceiling room : Nat} {left : Filter} {s : TokenStream}, s.current.token = kind.token →
    loop ceiling (room + 1) left s = (do
      let s ← Grammar.advance room s
      let (right, s) ← part ceiling room s
      loop ceiling room (.logical kind left right) s)
  keeps : ∀ (ceiling room : Nat) (left : Filter) (s : TokenStream),
    Grammar.Keeps (· ≤ room) s Prod.snd (loop ceiling room left s)
  partKeeps : ∀ (ceiling room : Nat) (s : TokenStream),
    Grammar.Keeps (· ≤ room) s Prod.snd (part ceiling room s)
  progress : ∀ {ceiling room : Nat} {s s' : TokenStream} {t : Filter},
    part ceiling room s = .ok (t, s') → s'.ahead < s.ahead

lemma loops_and : Loops .and Grammar.operand Grammar.andChain where
  stop := Grammar.andChain_stop
  zero := Grammar.andChain_zero
  succ := Grammar.andChain_and
  keeps ceiling room := (Grammar.steady ceiling room).andChain
  partKeeps ceiling room := (Grammar.steady ceiling room).operand
  progress h := by
    obtain ⟨phrase, -, -, hpasses⟩ := (Grammar.sound _ _).operand h
    exact phrase.ahead_lt hpasses

lemma loops_or : Loops .or Grammar.conjunction Grammar.orChain where
  stop := Grammar.orChain_stop
  zero := Grammar.orChain_zero
  succ := Grammar.orChain_or
  keeps ceiling room := (Grammar.steady ceiling room).orChain
  partKeeps ceiling room := (Grammar.steady ceiling room).conjunction
  progress h := by
    obtain ⟨phrase, -, -, hpasses⟩ := (Grammar.sound _ _).conjunction h
    exact phrase.ahead_lt hpasses

lemma connective_ne_eof (kind : Connective) : kind.token ≠ .eof := by
  cases kind <;> simp [Connective.token]

/-- What a loop does behind an operand. -/
def goOn (kind : Connective) (part : Descent Filter) (folds : Nat) (left : Filter) (ahead : Nat)
    (right : Filter) : Descent Filter := fun next =>
  if next.stream.ahead < ahead then chainFrom kind part (folds + 1) (.logical kind left right) next
  else .error .stalled next

section

variable {kind : Connective} {step : Descent Filter} {folds : Nat} {left : Filter}

lemma chainFrom_more (h : parser.stream.current.token = kind.token) :
    chainFrom kind step folds left parser =
      (do enter; advance; step >>= goOn kind step folds left parser.stream.ahead).run parser := by
  have hround : chainFrom kind step folds left parser =
      (further step >>= goOn kind step folds left parser.stream.ahead).run parser := by
    rw [chainFrom, if_pos h, EStateM.run_bind]
    cases (further step).run parser <;> rfl
  rw [hround, further]
  simp only [bind_assoc]

lemma chainFrom_end (h : parser.stream.current.token ≠ kind.token) (hfolds : folds ≤ parser.depth) :
    chainFrom kind step folds left parser = parser.settle folds (.ok (left, parser.stream)) := by
  have hleave : (leave folds).run parser = .ok () { parser with depth := parser.depth - folds } :=
    if_pos hfolds
  rw [chainFrom, if_neg h, hleave]
  rfl

/-- The loop agrees with the grammar if its operands do.  The induction is on the levels that are left; the
levels of the operands so far are open and come back at the end. -/
lemma chainFrom_eq {part : Nat → Nat → TokenStream → Grammar.Outcome}
    {loop : Nat → Nat → Filter → TokenStream → Grammar.Outcome} (loops : Loops kind part loop)
    (hroom : parser.room = room) (hfolds : folds ≤ parser.depth)
    (hstep : ∀ other : Parser, other.room < room →
      step.run other = other.settle 0 (part other.maxNesting other.room other.stream)) :
    chainFrom kind step folds left parser =
      parser.settle folds (loop parser.maxNesting room left parser.stream) := by
  induction room generalizing parser folds left with
  | zero =>
    by_cases hmore : parser.stream.current.token = kind.token
    · rw [chainFrom_more hmore, loops.zero hmore]
      exact run_enter_full hroom _ _
    · rw [chainFrom_end hmore hfolds, loops.stop hmore]
  | succ room ih =>
    by_cases hmore : parser.stream.current.token = kind.token
    · rw [chainFrom_more hmore, run_open hroom, loops.succ hmore, Parser.settle, Parser.attempt_bind]
      refine Parser.attempt_congr fun s hs => ?_
      have hentered := Parser.room_entered hroom s
      have hpart := hstep (parser.entered s) (by omega)
      rw [hentered] at hpart
      rw [run_bind_entered hroom hpart (loops.partKeeps _ _ _), Parser.attempt_bind]
      refine Parser.attempt_congr fun read hread => ?_
      -- the connective and the operand have been taken, so the loop goes round again
      have hprogress : read.2.ahead < parser.stream.ahead := by
        have hlt := TokenStream.ahead_lt_of_next (Grammar.advance_eq_ok_iff.1 hs)
          (hmore ▸ connective_ne_eof kind)
        exact (loops.progress hread).trans hlt
      have hchain := @ih (parser.entered read.2) (folds + 1) (.logical kind left read.1)
        (Parser.room_entered hroom read.2) (Nat.succ_le_succ hfolds)
        (fun other hother => hstep other (by omega))
      rw [Parser.settle_entered hroom read.2 folds (loops.keeps _ _ _ _)] at hchain
      exact (if_pos hprogress).trans hchain
    · rw [chainFrom_end hmore hfolds, loops.stop hmore]

end

/-! ### Calls agree -/

/-- The calls agree with the readers of the grammar for parsers with `room` levels left, if they may be nested
deep enough. -/
structure Agrees (room : Nat) : Prop where
  negation : ∀ {parser : Parser} {calls : Nat}, parser.room = room → 4 * room + 2 ≤ calls →
    (negation calls).run parser =
      parser.settle 0 (Grammar.operand parser.maxNesting room parser.stream)
  conjunction : ∀ {parser : Parser} {calls : Nat}, parser.room = room → 4 * room + 3 ≤ calls →
    (conjunction calls).run parser =
      parser.settle 0 (Grammar.conjunction parser.maxNesting room parser.stream)
  disjunction : ∀ {parser : Parser} {calls : Nat}, parser.room = room → 4 * room + 4 ≤ calls →
    (disjunction calls).run parser =
      parser.settle 0 (Grammar.filter parser.maxNesting room parser.stream)

lemma run_close (h : parser.room = room + 1) (inner : Filter) (s : TokenStream) :
    (close inner).run (parser.entered s) = parser.settle 0 (Grammar.close room inner s) := by
  rw [close, run_current_bind, Parser.entered_stream]
  by_cases hclose : s.current.token = .rparen
  · rw [if_pos hclose, run_advance_bind h, Grammar.close_rparen hclose, Parser.settle, Parser.attempt_bind]
    refine Parser.attempt_congr fun s' _ => ?_
    rw [EStateM.run_bind, run_leave]
    rfl
  · rw [if_neg hclose, Grammar.close_other hclose]
    exact run_refuse h _ s _

section

variable {calls : Nat} (ih : ∀ r < room, Agrees r) (hroom : parser.room = room)

include ih hroom

lemma term_eq (hnot : parser.stream.current.token ≠ .not) (hcalls : 4 * room + 1 ≤ calls) :
    (term calls).run parser =
      parser.settle 0 (Grammar.operand parser.maxNesting room parser.stream) := by
  obtain ⟨calls, rfl⟩ : ∃ n, calls = n + 1 := ⟨calls - 1, by omega⟩
  rw [term, run_current_bind]
  by_cases hgroup : parser.stream.current.token = .lparen
  · rw [if_pos hgroup]
    match room with
    | 0 =>
      rw [Grammar.operand_zero (Or.inr hgroup)]
      exact run_enter_full hroom _ _
    | r + 1 =>
      rw [run_open hroom, Grammar.operand_group hgroup, Parser.settle, Parser.attempt_bind]
      refine Parser.attempt_congr fun s _ => ?_
      have hinner := (ih r (Nat.lt_succ_self r)).disjunction (Parser.room_entered hroom s)
        (show 4 * r + 4 ≤ calls by omega)
      rw [run_bind_entered hroom hinner ((Grammar.steady _ r).filter _), Parser.attempt_bind]
      refine Parser.attempt_congr fun read _ => ?_
      exact run_close hroom read.1 read.2
  · rw [if_neg hgroup, Grammar.operand_comparison hnot hgroup, run_comparison, hroom]

lemma negation_eq (hcalls : 4 * room + 2 ≤ calls) :
    (negation calls).run parser =
      parser.settle 0 (Grammar.operand parser.maxNesting room parser.stream) := by
  obtain ⟨calls, rfl⟩ : ∃ n, calls = n + 1 := ⟨calls - 1, by omega⟩
  rw [negation, run_current_bind]
  by_cases hnot : parser.stream.current.token = .not
  · rw [if_pos hnot]
    match room with
    | 0 =>
      rw [Grammar.operand_zero (Or.inl hnot)]
      exact run_enter_full hroom _ _
    | r + 1 =>
      rw [run_open hroom, Grammar.operand_not hnot, Parser.settle, Parser.attempt_bind]
      refine Parser.attempt_congr fun s _ => ?_
      have hchild := (ih r (Nat.lt_succ_self r)).negation (Parser.room_entered hroom s)
        (show 4 * r + 2 ≤ calls by omega)
      rw [run_bind_entered hroom hchild ((Grammar.steady _ r).operand _), Parser.attempt_bind]
      refine Parser.attempt_congr fun read _ => ?_
      rw [EStateM.run_bind, run_leave]
      rfl
  · rw [if_neg hnot]
    exact term_eq ih hroom hnot (by omega)

lemma conjunction_eq (hcalls : 4 * room + 3 ≤ calls) :
    (conjunction calls).run parser =
      parser.settle 0 (Grammar.conjunction parser.maxNesting room parser.stream) := by
  obtain ⟨calls, rfl⟩ : ∃ n, calls = n + 1 := ⟨calls - 1, by omega⟩
  rw [conjunction, run_bind_of_settle (negation_eq ih hroom (by omega)), Parser.settle, Grammar.conjunction,
    Parser.attempt_bind]
  refine Parser.attempt_congr fun read _ => ?_
  exact @chainFrom_eq { parser with stream := read.2 } _ _ _ _ _ _ _ loops_and hroom (Nat.zero_le _)
    fun other hother => (ih other.room hother).negation rfl (by omega)

lemma disjunction_eq (hcalls : 4 * room + 4 ≤ calls) :
    (disjunction calls).run parser =
      parser.settle 0 (Grammar.filter parser.maxNesting room parser.stream) := by
  obtain ⟨calls, rfl⟩ : ∃ n, calls = n + 1 := ⟨calls - 1, by omega⟩
  rw [disjunction, run_bind_of_settle (conjunction_eq ih hroom (by omega)), Parser.settle, Grammar.filter,
    Parser.attempt_bind]
  refine Parser.attempt_congr fun read _ => ?_
  exact @chainFrom_eq { parser with stream := read.2 } _ _ _ _ _ _ _ loops_or hroom (Nat.zero_le _)
    fun other hother => (ih other.room hother).conjunction rfl (by omega)

end

/-- The calls agree with the readers of the grammar. -/
lemma agrees (room : Nat) : Agrees room := by
  induction room using Nat.strong_induction_on with
  | h room ih => exact ⟨negation_eq ih, conjunction_eq ih, disjunction_eq ih⟩

lemma expression_eq {calls : Nat} (hcalls : 4 * (parser.room + 1) ≤ calls) :
    (disjunction calls).run parser = Parser.answered parser.expression := by
  rw [Parser.answered_expression]
  exact (agrees parser.room).disjunction rfl (by omega)

/-- A parser that counts its open levels does what the parser does. -/
lemma parse_eq {calls : Nat} (hcalls : 4 * (parser.room + 1) ≤ calls) :
    (parse calls).run parser = Parser.answered parser.parse := by
  rw [parse, run_current_bind, Parser.parse]
  by_cases hempty : parser.stream.current.token = .eof
  · rw [if_pos hempty, if_pos hempty]
    rfl
  rw [if_neg hempty, if_neg hempty, EStateM.run_bind, expression_eq hcalls]
  rcases parser.expression with ⟨e | t, next⟩
  · rfl
  · simp only [Parser.answered]
    rw [run_current_bind]
    by_cases hend : next.stream.current.token = .eof
    · rw [if_pos hend, if_pos hend]
      rfl
    · rw [if_neg hend, if_neg hend]
      rfl

/-! ### How many calls are needed -/

lemma run_bind_of_error {x : Descent α} {halt : Halt} {next : Parser} (h : x.run parser = .error halt next)
    (f : α → Descent β) : (x >>= f).run parser = .error halt next := by
  rw [EStateM.run_bind, h]

/-- Three calls lead to a group or a comparison. -/
lemma disjunction_of_term {calls : Nat} {halt : Halt} {next : Parser}
    (hnot : parser.stream.current.token ≠ .not) (h : (term calls).run parser = .error halt next) :
    (disjunction (calls + 3)).run parser = .error halt next := by
  have hnegation : (negation (calls + 1)).run parser = .error halt next := by
    rw [negation, run_current_bind, if_neg hnot, h]
  have hconjunction : (conjunction (calls + 2)).run parser = .error halt next := by
    rw [conjunction, run_bind_of_error hnegation]
  rw [disjunction, run_bind_of_error hconjunction]

/-- Behind a number of parentheses, with the calls that these take and three more, the fourth is one too
many. -/
lemma exhausted_of_groups {groups : Nat} {s : TokenStream}
    (hpasses : parser.stream.Passes (List.replicate groups .lparen) s) (hroom : groups ≤ parser.room)
    (hnot : s.current.token ≠ .not) :
    ∃ next, (disjunction (4 * groups + 3)).run parser = .error .exhausted next := by
  induction groups generalizing parser with
  | zero =>
    cases hpasses
    exact ⟨parser, disjunction_of_term hnot rfl⟩
  | succ groups ih =>
    rw [List.replicate_succ, TokenStream.passes_cons_iff] at hpasses
    obtain ⟨hopen, s₁, hnext, hmore⟩ := hpasses
    obtain ⟨room, hsucc⟩ : ∃ room, parser.room = room + 1 := ⟨parser.room - 1, by omega⟩
    have hentered := Parser.room_entered hsucc s₁
    obtain ⟨next, hinner⟩ := @ih (parser.entered s₁) hmore (by omega)
    refine ⟨next, disjunction_of_term (by simp [hopen]) ?_⟩
    have hcalls : 4 * (groups + 1) = 4 * groups + 3 + 1 := rfl
    rw [hcalls, term, run_current_bind, if_pos hopen, run_open hsucc, Grammar.advance_eq_ok_iff.2 hnext]
    exact run_bind_of_error hinner _

end Descent

namespace Lexer

lemma lexes_groups (groups : Nat) :
    Lexes (List.replicate groups '(') (List.replicate groups .lparen) [] := by
  induction groups with
  | zero => exact .nil []
  | succ groups ih => exact (lexes_open _).append ih

end Lexer

namespace Parser

/-- A fresh parser stands at the first token of the text. -/
lemma ofText_eq_ok_iff {text : String} {parser : Parser} :
    ofText text = .ok parser ↔
      (Lexer.ofText text).next = (.ok parser.stream.current, parser.stream.lexer) ∧
        parser.depth = 0 ∧ parser.maxNesting = defaultMaxNesting := by
  obtain ⟨⟨current, lexer⟩, depth, maxNesting⟩ := parser
  rw [ofText]
  rcases (Lexer.ofText text).next with ⟨e | spanned, lexer'⟩
  · simp
  · simp [eq_comm, and_assoc]

lemma room_of_ofText {text : String} {parser : Parser} (h : ofText text = .ok parser) (maxNesting : Nat) :
    (parser.withMaxNesting maxNesting).room = maxNesting := by
  obtain ⟨-, hdepth, -⟩ := ofText_eq_ok_iff.1 h
  rw [room, withMaxNesting, hdepth, Nat.sub_zero]

lemma answered_ne_exhausted {α : Type} (answer : Except ParseError α × Parser) (parser : Parser) :
    answered answer ≠ .error .exhausted parser := by
  rcases answer with ⟨e | a, next⟩ <;> simp [answered]

end Parser

/-- For every number of levels some text needs a call more than four for each of them and three. -/
lemma Descent.exists_exhausted (maxNesting : Nat) :
    ∃ text parser next, Parser.ofText text = .ok parser ∧
      (parse (4 * maxNesting + 3)).run (parser.withMaxNesting maxNesting) = .error .exhausted next := by
  have hlexes : Lexer.Lexes (Lexer.ofText (String.ofList (List.replicate (maxNesting + 1) '('))).rest
      (List.replicate maxNesting .lparen ++ [.lparen]) [] := by
    rw [← List.replicate_succ']
    simpa [Lexer.ofText] using Lexer.lexes_groups (maxNesting + 1)
  obtain ⟨s, s', hfirst, hpasses, hend⟩ := Lexer.exists_passes hlexes
  have hparser : Parser.ofText (String.ofList (List.replicate (maxNesting + 1) '(')) =
      .ok ⟨s, 0, defaultMaxNesting⟩ := Parser.ofText_eq_ok_iff.2 ⟨hfirst, rfl, rfl⟩
  obtain ⟨next, hnext⟩ := @exhausted_of_groups (Parser.mk s 0 maxNesting) _ _ hpasses le_rfl (by simp [hend])
  have hopen : s.current.token = .lparen := by
    cases maxNesting with
    | zero =>
      cases hpasses
      exact hend
    | succ n => exact (TokenStream.passes_cons_iff.1 hpasses).1
  refine ⟨_, _, next, hparser, ?_⟩
  rw [parse, run_current_bind, if_neg]
  · exact run_bind_of_error hnext _
  · simp [Parser.withMaxNesting, hopen]

/-- **The limit on nesting bounds the calls.**  If `4 * (maxNesting + 1)` calls may be active at once, or any
larger number, a fresh parser needs no further one, whatever the text: what it returns does not depend on the
number, and neither has a chain gone round without having taken a token nor has a level been given back that
was not open.  It is the least number with this property. -/
theorem Descent.isLeast_calls (maxNesting : Nat) :
    IsLeast {calls | ∀ text parser, Parser.ofText text = .ok parser → ∀ more, calls ≤ more →
      (parse more).run (parser.withMaxNesting maxNesting) =
        Parser.answered (parser.withMaxNesting maxNesting).parse} (4 * (maxNesting + 1)) := by
  refine ⟨fun text parser hparser more hmore => ?_, fun calls hcalls => ?_⟩
  · apply parse_eq
    rwa [Parser.room_of_ofText hparser]
  · by_contra hfewer
    obtain ⟨text, parser, next, hparser, hexhausted⟩ := exists_exhausted maxNesting
    have hanswered := hcalls text parser hparser (4 * maxNesting + 3) (by omega)
    exact Parser.answered_ne_exhausted _ next (hanswered.symm.trans hexhausted)

end FilterLang
