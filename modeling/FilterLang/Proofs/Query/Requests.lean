import FilterLang.Proofs.Query.Descent

/-!
# Many requests to one parser

A parser can be asked again after an answer, also after an error, and its limit on nesting can be changed in
between, even to less than the number of levels that are open.  `Parser.after` is the parser behind a list of
requests, and `Descent.serve` meets the same requests with a parser that counts its levels.

Three things are kept by a request and so by all of them: the count never falls below zero
(`Descent.run_serve`), a failed request leaves levels open but none beyond the limit (`Parser.answer_balanced`),
and the place of the token at the front never decreases (`Parser.answer_precedes`, `Parser.placed_after`).
-/

namespace FilterLang

/-- What a parser can be asked. -/
inductive Request where
  /-- A filter that takes all the tokens. -/
  | parse
  /-- A filter at the front of the tokens. -/
  | expression
  /-- Another limit on nesting. -/
  | withMaxNesting (maxNesting : Nat)

namespace Parser

/-- The answer to a request, with no filter if only the limit is set, and the parser behind it. -/
def answer (parser : Parser) : Request → Except ParseError (Option Filter) × Parser
  | .parse => parser.parse.map (Except.map some) id
  | .expression => parser.expression.map (Except.map some) id
  | .withMaxNesting maxNesting => (.ok none, parser.withMaxNesting maxNesting)

/-- The parser behind some requests, whatever the answers to them were. -/
def after (parser : Parser) (requests : List Request) : Parser :=
  requests.foldl (fun parser request => (parser.answer request).2) parser

lemma after_cons (parser : Parser) (request : Request) (requests : List Request) :
    parser.after (request :: requests) = (parser.answer request).2.after requests := rfl

/-- A whole query is refused before its filter is read or behind it, or the answer is the one for the filter. -/
lemma parse_cases (parser : Parser) :
    parser.parse = (.error (parser.refuse .emptyQuery), parser) ∨ parser.parse = parser.expression ∨
      ∃ t next, parser.expression = (.ok t, next) ∧
        parser.parse = (.error (next.refuse .trailingToken), next) := by
  rw [parse]
  split
  · exact Or.inl rfl
  rcases parser.expression with ⟨e | t, next⟩
  · exact Or.inr (Or.inl rfl)
  · dsimp only
    split
    · exact Or.inr (Or.inl rfl)
    · exact Or.inr (Or.inr ⟨t, next, rfl, rfl⟩)

/-! ### Levels -/

/-- A request that is met leaves the levels as they were.  One that fails may leave levels open, but none beyond
the limit. -/
def Balanced {α : Type} (parser : Parser) (answer : Except ParseError α × Parser) : Prop :=
  Meets (fun _ => answer.2.depth = parser.depth)
    (fun _ => parser.depth ≤ answer.2.depth ∧ answer.2.depth ≤ max parser.depth parser.maxNesting) answer.1

lemma expression_balanced (parser : Parser) : parser.Balanced parser.expression := by
  rw [expression]
  cases Grammar.filter parser.maxNesting parser.room parser.stream with
  | ok read => rfl
  | error stop =>
    have hle : parser.room - stop.room ≤ parser.maxNesting - parser.depth := Nat.sub_le _ _
    have hmost : parser.depth + (parser.room - stop.room) ≤ max parser.depth parser.maxNesting := by omega
    exact ⟨Nat.le_add_right _ _, hmost⟩

lemma balanced_refused {α : Type} {parser next : Parser} (h : next.depth = parser.depth) (e : ParseError) :
    parser.Balanced ((.error e, next) : Except ParseError α × Parser) :=
  ⟨h.ge, h.le.trans (le_max_left _ _)⟩

lemma parse_balanced (parser : Parser) : parser.Balanced parser.parse := by
  have hbalanced := parser.expression_balanced
  rcases parser.parse_cases with h | h | ⟨t, next, hexpression, h⟩
  · rw [h]
    exact balanced_refused rfl _
  · rwa [h]
  · rw [hexpression] at hbalanced
    rw [h]
    exact balanced_refused hbalanced _

lemma Balanced.map {α β : Type} {parser : Parser} {answer : Except ParseError α × Parser}
    (h : parser.Balanced answer) (f : α → β) : parser.Balanced (answer.map (Except.map f) id) := by
  rcases answer with ⟨e | a, next⟩ <;> exact h

lemma answer_balanced (parser : Parser) (request : Request) : parser.Balanced (parser.answer request) := by
  cases request with
  | parse => exact parser.parse_balanced.map some
  | expression => exact parser.expression_balanced.map some
  | withMaxNesting maxNesting => rfl

/-! ### Places -/

lemma expression_precedes (parser : Parser) : parser.stream.Precedes parser.expression.2.stream := by
  have hkeeps := (Grammar.steady parser.maxNesting parser.room).filter parser.stream
  rw [expression]
  cases hread : Grammar.filter parser.maxNesting parser.room parser.stream with
  | ok read =>
    rw [hread] at hkeeps
    exact hkeeps
  | error stop =>
    rw [hread] at hkeeps
    exact hkeeps.1

lemma parse_precedes (parser : Parser) : parser.stream.Precedes parser.parse.2.stream := by
  have hprecedes := parser.expression_precedes
  rcases parser.parse_cases with h | h | ⟨t, next, hexpression, h⟩
  · rw [h]
    exact .refl _
  · rwa [h]
  · rw [hexpression] at hprecedes
    rwa [h]

lemma answer_precedes (parser : Parser) (request : Request) :
    parser.stream.Precedes (parser.answer request).2.stream := by
  cases request with
  | parse => exact parser.parse_precedes
  | expression => exact parser.expression_precedes
  | withMaxNesting maxNesting => exact .refl _

/-- A fresh parser comes from a step that is made in front of the text. -/
lemma placed_of_ofText {text : String} {parser : Parser} (h : ofText text = .ok parser) :
    parser.stream.Placed := by
  obtain ⟨hfirst, -, -⟩ := ofText_eq_ok_iff.1 h
  have hstep := (TokenStream.mk ⟨.eof, 0⟩ (Lexer.ofText text)).precedes_advance (Nat.zero_le _)
  simp only [TokenStream.advance, hfirst] at hstep
  exact hstep.1

lemma placed_after {parser : Parser} (h : parser.stream.Placed) (requests : List Request) :
    (parser.after requests).stream.Placed := by
  induction requests generalizing parser with
  | nil => exact h
  | cons request requests ih => exact ih (parser.answer_precedes request h).1

end Parser

namespace Descent

/-! ### The same requests with a count -/

/-- The answer to a request. -/
def answer (calls : Nat) : Request → Descent (Option Filter)
  | .parse => return some (← parse calls)
  | .expression => return some (← disjunction calls)
  | .withMaxNesting maxNesting => do
    modify (·.withMaxNesting maxNesting)
    return none

/-- A step whose error, if the query is at fault, is passed over. -/
def tolerate {α : Type} (x : Descent α) : Descent Unit := fun parser =>
  match x.run parser with
  | .ok _ next => .ok () next
  | .error (.error _) next => .ok () next
  | .error halt next => .error halt next

/-- Requests one after the other, with the calls that the limit of the moment allows. -/
def serve : List Request → Descent Unit
  | [] => return ()
  | request :: requests => do
    let parser ← get
    tolerate (answer (4 * (parser.maxNesting + 1)) request)
    serve requests

lemma answer_eq {parser : Parser} {calls : Nat} (hcalls : 4 * (parser.maxNesting + 1) ≤ calls)
    (request : Request) : (answer calls request).run parser = Parser.answered (parser.answer request) := by
  have henough : 4 * (parser.room + 1) ≤ calls := by
    have hle : parser.room ≤ parser.maxNesting := Nat.sub_le _ _
    omega
  cases request with
  | parse =>
    rw [answer, EStateM.run_bind, parse_eq henough, Parser.answer]
    rcases parser.parse with ⟨e | t, next⟩ <;> rfl
  | expression =>
    rw [answer, EStateM.run_bind, expression_eq henough, Parser.answer]
    rcases parser.expression with ⟨e | t, next⟩ <;> rfl
  | withMaxNesting maxNesting => rfl

lemma run_tolerate {α : Type} {x : Descent α} {parser : Parser} {answer : Except ParseError α × Parser}
    (h : x.run parser = Parser.answered answer) : (tolerate x).run parser = .ok () answer.2 := by
  simp only [EStateM.run, tolerate] at h ⊢
  rw [h]
  rcases answer with ⟨e | a, next⟩ <;> rfl

/-- All the requests are served, and the count is the one of the parser. -/
lemma run_serve (parser : Parser) (requests : List Request) :
    (serve requests).run parser = .ok () (parser.after requests) := by
  induction requests generalizing parser with
  | nil => rfl
  | cons request requests ih =>
    rw [serve, EStateM.run_bind, EStateM.run_get]
    dsimp only
    rw [EStateM.run_bind, run_tolerate (answer_eq le_rfl request), Parser.after_cons]
    exact ih _

/-- **The count of levels over many requests.**  A fresh parser serves any list of requests without giving back
a level that is not open.  Whatever the answers were, a further request is then answered as well; if it is met it
leaves the count as it was, and if it fails it leaves a count that is no lower, and no higher than the limit
unless it was so before.  The token at the front stands where it stood before the request or behind. -/
theorem levels_of_requests {text : String} {start : Parser} (h : Parser.ofText text = .ok start)
    (requests : List Request) (request : Request) :
    let before := start.after requests
    let after := (before.answer request).2
    (serve requests).run start = .ok () before ∧
      (∀ calls, 4 * (before.maxNesting + 1) ≤ calls →
        (answer calls request).run before = Parser.answered (before.answer request)) ∧
      Meets (fun _ => after.depth = before.depth)
        (fun _ => before.depth ≤ after.depth ∧ after.depth ≤ max before.depth before.maxNesting)
        (before.answer request).1 ∧
      before.stream.current.position ≤ after.stream.current.position := by
  intro before after
  have hplaced : before.stream.Placed := Parser.placed_after (Parser.placed_of_ofText h) requests
  refine ⟨run_serve start requests, fun calls hcalls => answer_eq hcalls request, ?_, ?_⟩
  · exact before.answer_balanced request
  · exact (before.answer_precedes request hplaced).2

theorem levels_of_requests_resumed :
    ∃ start, Parser.ofText "(a eq 1 and (b in 5 not c eq 2" = .ok start ∧
      let before := start.after [.withMaxNesting 3, .parse, .withMaxNesting 4]
      let after := (before.answer .expression).2
      (serve [.withMaxNesting 3, .parse, .withMaxNesting 4]).run start = .ok () before ∧
        (answer 20 .expression).run before = Parser.answered (before.answer .expression) ∧
        (∃ t, (before.answer .expression).1 = .ok t) ∧ before.depth = 3 ∧ after.depth = 3 ∧
        before.stream.current.position ≤ after.stream.current.position := by
  obtain ⟨start, hstart⟩ : ∃ start, Parser.ofText "(a eq 1 and (b in 5 not c eq 2" = .ok start := ⟨_, rfl⟩
  obtain ⟨hserve, hanswer, hlevels, hplace⟩ :=
    levels_of_requests hstart [.withMaxNesting 3, .parse, .withMaxNesting 4] .expression
  refine ⟨start, hstart, hserve, ?_⟩
  -- the value 5 is refused with three levels open, and the filter behind it takes the fourth
  obtain ⟨hdepth, hlimit, hmet⟩ :
      (start.after [.withMaxNesting 3, .parse, .withMaxNesting 4]).depth = 3 ∧
        (start.after [.withMaxNesting 3, .parse, .withMaxNesting 4]).maxNesting = 4 ∧
        ∃ t, ((start.after [.withMaxNesting 3, .parse, .withMaxNesting 4]).answer .expression).1 = .ok t := by
    obtain rfl := Except.ok.inj hstart
    exact ⟨rfl, rfl, _, rfl⟩
  obtain ⟨t, ht⟩ := hmet
  rw [ht] at hlevels
  exact ⟨hanswer 20 (by omega), ⟨t, ht⟩, hdepth, hlevels.trans hdepth, hplace⟩

end Descent

end FilterLang
