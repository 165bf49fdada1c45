import FilterLang.Proofs.Query.Places
import FilterLang.Proofs.Query.Spelling

/-!
# Where a query stops being one

A parser that refuses a query names the place of a token.  It is the right place if the tokens in front of it
could still become a query and no query goes on with that token.  The first is shown with a phrase that goes
on from there.  The second is a statement about all phrases, and for it `Grammar.Stage` says what has to be
known about the tokens so far: how many parentheses are open, and what is due next.  Every phrase takes a
stage where an operand is due to the stage where it is complete (`Grammar.stage_phrase`), so where a token
does not fit the stage, no phrase has it there.

`Grammar.Refused` is what all readers promise about their syntax errors.
-/

namespace FilterLang

/-- The cause is an operator that does not go with its literal. -/
def SyntaxCause.isPairing : SyntaxCause → Bool
  | requiresArray _ | requiresPair => true
  | _ => false

namespace Grammar

/-! ### Stages of a query -/

/-- What is due next in a query. -/
inductive Due where
  | operand
  /-- A name has been read. -/
  | operator
  /-- A name and an operator have been read. -/
  | literal (op : Operator)
  /-- An operand is complete, and whatever goes on from it is due. -/
  | more

/-- Where a query stands between two tokens: how many parentheses are open, and what is due. -/
structure Stage where
  groups : Nat
  due : Due

/-- The stage behind one more token, if the token fits. -/
def Stage.step : Stage → Token → Option Stage
  | ⟨groups, .operand⟩, .not => some ⟨groups, .operand⟩
  | ⟨groups, .operand⟩, .lparen => some ⟨groups + 1, .operand⟩
  | ⟨groups, .operand⟩, .identifier _ => some ⟨groups, .operator⟩
  | ⟨groups, .operator⟩, .operator op => some ⟨groups, .literal op⟩
  | ⟨groups, .literal op⟩, .literal value =>
    match pairValue op value with
    | .ok _ => some ⟨groups, .more⟩
    | .error _ => none
  | ⟨groups, .more⟩, .and => some ⟨groups, .operand⟩
  | ⟨groups, .more⟩, .or => some ⟨groups, .operand⟩
  | ⟨groups + 1, .more⟩, .rparen => some ⟨groups, .more⟩
  | _, _ => none

lemma Stage.step_operand {u : Token} (hnot : u ≠ .not) (hgroup : u ≠ .lparen)
    (hname : ∀ field, u ≠ .identifier field) (groups : Nat) : step ⟨groups, .operand⟩ u = none := by
  cases u with
  | identifier field => exact absurd rfl (hname field)
  | not => exact absurd rfl hnot
  | lparen => exact absurd rfl hgroup
  | _ => rfl

lemma Stage.step_operator {u : Token} (h : ∀ op, u ≠ .operator op) (groups : Nat) :
    step ⟨groups, .operator⟩ u = none := by
  cases u with
  | operator op => exact absurd rfl (h op)
  | _ => rfl

lemma Stage.step_literal {u : Token} (h : ∀ value, u ≠ .literal value) (groups : Nat) (op : Operator) :
    step ⟨groups, .literal op⟩ u = none := by
  cases u with
  | literal value => exact absurd rfl (h value)
  | _ => rfl

/-- Behind an operand only a connective goes on, or the end of a group. -/
lemma Stage.step_more {u : Token} {groups : Nat} (hand : u ≠ .and) (hor : u ≠ .or)
    (hclose : u = .rparen → groups = 0) : step ⟨groups, .more⟩ u = none := by
  cases u with
  | and => exact absurd rfl hand
  | or => exact absurd rfl hor
  | rparen =>
    rw [hclose rfl]
    rfl
  | _ => rfl

/-- The stage behind some tokens, if all of them fit. -/
def Stage.run (stage : Stage) (us : List Token) : Option Stage := us.foldlM Stage.step stage

lemma Stage.run_append (stage : Stage) (us vs : List Token) :
    stage.run (us ++ vs) = (stage.run us).bind fun mid => mid.run vs := by
  rw [run, List.foldlM_append]
  rfl

lemma Stage.run_cons (stage : Stage) (u : Token) (us : List Token) :
    stage.run (u :: us) = (stage.step u).bind fun next => next.run us := by
  rw [run, List.foldlM_cons]
  rfl

/-- A phrase leads from where an operand is due to where one is complete, with the same parentheses open. -/
lemma stage_phrase {category : Category} (phrase : Phrase category) (groups : Nat) :
    Stage.run ⟨groups, .operand⟩ phrase.tokens = some ⟨groups, .more⟩ := by
  induction phrase generalizing groups with
  | comparison field op literal value reads =>
    simp [Phrase.tokens, Stage.run, Stage.step, pairValue_eq_ok_iff.2 reads]
  | group inner ih =>
    rw [Phrase.tokens, Stage.run_cons, Stage.step, Option.bind_some, Stage.run_append, ih]
    rfl
  | not child ih =>
    rw [Phrase.tokens, Stage.run_cons, Stage.step, Option.bind_some, ih]
  | operand first ih => exact ih groups
  | and left right ihleft ihright =>
    rw [Phrase.tokens, Stage.run_append, ihleft, Option.bind_some, Stage.run_cons, Stage.step,
      Option.bind_some, ihright]
  | conjunction first ih => exact ih groups
  | or left right ihleft ihright =>
    rw [Phrase.tokens, Stage.run_append, ihleft, Option.bind_some, Stage.run_cons, Stage.step,
      Option.bind_some, ihright]

/-- Nothing goes on from the stage with this token, and the end of the text is no end of a query there. -/
structure Stage.Stuck (stage : Stage) (u : Token) : Prop where
  step : stage.step u = none
  incomplete : u = .eof → stage ≠ ⟨0, .more⟩

/-- No phrase goes on with a token that does not fit. -/
lemma Stage.Stuck.tokens_ne {us more : List Token} {stage : Stage} {u : Token} (h : stage.Stuck u)
    (hrun : Stage.run ⟨0, .operand⟩ us = some stage) (phrase : Phrase .filter) :
    phrase.tokens ≠ us ++ u :: more := by
  intro htokens
  have hphrase := stage_phrase phrase 0
  rw [htokens, run_append, hrun, Option.bind_some, run_cons, h.step] at hphrase
  cases hphrase

/-- No phrase ends where something is due. -/
lemma Stage.Stuck.tokens_ne_of_eof {us : List Token} {stage : Stage} (h : stage.Stuck .eof)
    (hrun : Stage.run ⟨0, .operand⟩ us = some stage) (phrase : Phrase .filter) :
    phrase.tokens ≠ us := by
  rintro rfl
  rw [stage_phrase] at hrun
  exact h.incomplete rfl (Option.some.inj hrun).symm

/-! ### What a syntax error says -/

/-- The tokens `us` in front of `s'` have been taken from `s`, and the token behind them is refused in a phrase
with a number of parentheses around it. -/
structure RefusedAt (category : Category) (groups : Nat) (cause : SyntaxCause) (us : List Token)
    (s s' : TokenStream) : Prop where
  passes : s.Passes us s'
  /-- Some phrase goes on from the tokens that have been taken. -/
  goesOn : ∃ (phrase : Phrase category) (more : List Token), phrase.tokens = us ++ more ∧
    ∀ u ∈ more, u.Spellable
  /-- The token does not fit. -/
  stuck : ∃ stage, Stage.run ⟨groups, .operand⟩ us = some stage ∧ stage.Stuck s'.current.token
  /-- An operator that does not go with its literal is an error at the literal. -/
  pairing : cause.isPairing = true → ∃ value, s'.current.token = .literal value

/-- A token is refused, and the error names its place. -/
def Refused (category : Category) (groups : Nat) (s : TokenStream) (cause : SyntaxCause)
    (position : Nat) : Prop :=
  ∃ us s', RefusedAt category groups cause us s s' ∧ s'.current.position = position

variable {ceiling room groups position : Nat} {s s' : TokenStream} {cause : SyntaxCause} {found : String}
  {stop : ParseStop}

/-- A token is refused where it stands, and not as the literal of an operator. -/
lemma Refused.of_stuck {category : Category} {us more : List Token} {stage : Stage}
    (phrase : Phrase category) (hcause : cause.isPairing = false) (hpasses : s.Passes us s')
    (htokens : phrase.tokens = us ++ more) (hmore : ∀ u ∈ more, u.Spellable)
    (hrun : Stage.run ⟨groups, .operand⟩ us = some stage) (hstuck : stage.Stuck s'.current.token) :
    Refused category groups s cause s'.current.position := by
  refine ⟨us, s', ⟨hpasses, ⟨phrase, more, htokens, hmore⟩, ⟨stage, hrun, hstuck⟩, fun hpairing => ?_⟩, rfl⟩
  rw [hcause] at hpairing
  cases hpairing

/-- What is refused in a part of a phrase is refused in the phrase. -/
lemma Refused.within {part whole : Category} {inside : Nat} (front back : List Token)
    (wrap : Phrase part → Phrase whole)
    (hwrap : ∀ phrase, (wrap phrase).tokens = front ++ (phrase.tokens ++ back))
    (hback : ∀ u ∈ back, u.Spellable) (hfront : s.Passes front s')
    (hrun : Stage.run ⟨groups, .operand⟩ front = some ⟨inside, .operand⟩)
    (h : Refused part inside s' cause position) : Refused whole groups s cause position := by
  obtain ⟨us, s'', ⟨hpasses, ⟨phrase, more, htokens, hmore⟩, ⟨stage, hstage, hstuck⟩, hpairing⟩, hposition⟩ := h
  refine ⟨front ++ us, s'', ⟨hfront.append hpasses, ⟨wrap phrase, more ++ back, ?_, ?_⟩,
    ⟨stage, ?_, hstuck⟩, hpairing⟩, hposition⟩
  · rw [hwrap, htokens, List.append_assoc, List.append_assoc]
  · intro u hu
    rcases List.mem_append.1 hu with hu | hu
    · exact hmore u hu
    · exact hback u hu
  · rw [Stage.run_append, hrun, Option.bind_some, hstage]

/-- The first part of a chain. -/
lemma Refused.first {part whole : Category} (wrap : Phrase part → Phrase whole)
    (hwrap : ∀ phrase, (wrap phrase).tokens = phrase.tokens)
    (h : Refused part groups s cause position) : Refused whole groups s cause position :=
  h.within [] [] wrap (by simp [hwrap]) (by simp) (.refl s) rfl

/-- A further part of a chain. -/
lemma Refused.further {chain part : Category} {u : Token}
    {join : Phrase chain → Phrase part → Phrase chain} (hjoin : Joins u join)
    (hu : Stage.step ⟨groups, .more⟩ u = some ⟨groups, .operand⟩) {s₀ : TokenStream} {left : Phrase chain}
    (hleft : s₀.Passes left.tokens s) (hcurrent : s.current.token = u) (hstep : advance room s = .ok s')
    (h : Refused part groups s' cause position) : Refused chain groups s₀ cause position := by
  refine h.within (left.tokens ++ [u]) [] (join left) ?_ (by simp) ?_ ?_
  · simp [hjoin.tokens]
  · rw [← hcurrent]
    exact hleft.append (.single (advance_eq_ok_iff.1 hstep))
  · rw [Stage.run_append, stage_phrase, Option.bind_some, Stage.run_cons, hu]
    rfl

/-! ### Comparisons -/

lemma advance_ne_syntactic (h : advance room s = .error stop) :
    stop.error ≠ .syntactic cause position found := by
  rw [advance] at h
  split at h
  · cases h
  · obtain rfl := Except.error.inj h
    simp

/-- An error at the token in front names its place. -/
lemma refuse_eq_error {c : SyntaxCause} (h : (refuse room s c : Outcome) = .error stop)
    (herror : stop.error = .syntactic cause position found) :
    s.current.position = position ∧ c = cause := by
  obtain rfl := Except.error.inj h
  obtain ⟨rfl, rfl, -⟩ := ParseError.syntactic.inj herror
  exact ⟨rfl, rfl⟩

/-- Every operator goes with some literal that can be written. -/
lemma exists_reads (op : Operator) :
    ∃ literal value, op.Reads literal value ∧ (Token.literal literal).Spellable := by
  have hlist (items : List Scalar) (h : ∀ s ∈ items, s ≠ .float .nan) :
      (Token.literal (.list items)).Spellable := Token.spellable_literal rfl h
  by_cases hbetween : op = .between
  · subst hbetween
    exact ⟨_, _, .range .null .null, hlist _ (by simp)⟩
  cases htakes : op.takesList with
  | true => exact ⟨_, _, .list [] htakes, hlist _ (by simp)⟩
  | false =>
    exact ⟨_, _, .plain (.list []) htakes hbetween, hlist _ (by simp)⟩

lemma comparison_refused (hnot : s.current.token ≠ .not) (hgroup : s.current.token ≠ .lparen)
    (h : comparison room s = .error stop) (herror : stop.error = .syntactic cause position found) :
    Refused .operand groups s cause position := by
  unfold comparison at h
  split at h
  · rename_i field hfield
    rcases bind_eq_error_iff.1 h with hfault | ⟨s₁, hstep, h⟩
    · exact absurd herror (advance_ne_syntactic hfault)
    have hpasses : s.Passes [.identifier field] s₁ :=
      hfield ▸ .single (advance_blank_eq_ok_iff.1 hstep)
    split at h
    · rename_i op hop
      rcases bind_eq_error_iff.1 h with hfault | ⟨s₂, hstep₁, h⟩
      · exact absurd herror (advance_ne_syntactic hfault)
      have hpasses₁ : s.Passes [.identifier field, .operator op] s₂ :=
        hpasses.append (hop ▸ .single (advance_eq_ok_iff.1 hstep₁))
      -- both errors behind the operator concern the token where its literal is due
      obtain ⟨literal, value, reads, hliteral⟩ := exists_reads op
      have hmore : ∀ u ∈ [Token.literal literal], u.Spellable := by simpa using hliteral
      split at h
      · rename_i wrong hwrong
        rcases bind_eq_error_iff.1 h with hfault | ⟨s₃, -, h⟩
        · exact absurd herror (advance_ne_syntactic hfault)
        split at h
        · cases h
        · rename_i cause' found' hpair
          obtain rfl := Except.error.inj h
          obtain ⟨rfl, rfl, -⟩ := ParseError.syntactic.inj herror
          refine ⟨_, s₂, ⟨hpasses₁, ⟨.comparison field op literal value reads, _, rfl, hmore⟩,
            ⟨⟨groups, .literal op⟩, rfl, ?_, by simp⟩, fun _ => ⟨wrong, hwrong⟩⟩, rfl⟩
          simp only [hwrong, Stage.step, hpair]
      · rename_i hother
        obtain ⟨rfl, rfl⟩ := refuse_eq_error h herror
        have hstuck : Stage.Stuck ⟨groups, .literal op⟩ s₂.current.token :=
          ⟨Stage.step_literal hother groups op, by simp⟩
        exact .of_stuck (.comparison field op literal value reads) rfl hpasses₁ rfl hmore rfl hstuck
    · rename_i hother
      obtain ⟨rfl, rfl⟩ := refuse_eq_error h herror
      have hstuck : Stage.Stuck ⟨groups, .operator⟩ s₁.current.token :=
        ⟨Stage.step_operator hother groups, by simp⟩
      exact .of_stuck (.comparison field .eq (.scalar .null) _ (.plain _ rfl (by decide))) rfl hpasses rfl
        (fun u hu => Phrase.spellable_leaf u (List.mem_cons_of_mem _ hu)) rfl hstuck
  · rename_i hother
    obtain ⟨rfl, rfl⟩ := refuse_eq_error h herror
    have hstuck : Stage.Stuck ⟨groups, .operand⟩ s.current.token :=
      ⟨Stage.step_operand hnot hgroup hother groups, by simp⟩
    exact .of_stuck .leaf rfl (.refl s) rfl Phrase.spellable_leaf rfl hstuck

/-! ### Operands and chains -/

section

variable {left t : Filter}

lemma andChain_stops (h : andChain ceiling room left s = .ok (t, s')) : s'.current.token ≠ .and := by
  induction room generalizing left s with
  | zero =>
    by_cases hand : s.current.token = .and
    · rw [andChain_zero hand] at h
      cases h
    · rw [andChain_stop hand] at h
      obtain ⟨-, rfl⟩ := Prod.mk.inj (Except.ok.inj h)
      exact hand
  | succ room ih =>
    by_cases hand : s.current.token = .and
    · rw [andChain_and hand] at h
      obtain ⟨s₁, -, h⟩ := bind_eq_ok_iff.1 h
      obtain ⟨⟨right, s₂⟩, -, h⟩ := bind_eq_ok_iff.1 h
      exact ih h
    · rw [andChain_stop hand] at h
      obtain ⟨-, rfl⟩ := Prod.mk.inj (Except.ok.inj h)
      exact hand

lemma conjunction_stops (h : conjunction ceiling room s = .ok (t, s')) : s'.current.token ≠ .and := by
  obtain ⟨⟨first, s₁⟩, -, h⟩ := bind_eq_ok_iff.1 h
  exact andChain_stops h

lemma orChain_stops (hs : s.current.token ≠ .and) (h : orChain ceiling room left s = .ok (t, s')) :
    s'.current.token ≠ .and ∧ s'.current.token ≠ .or := by
  induction room generalizing left s with
  | zero =>
    by_cases hor : s.current.token = .or
    · rw [orChain_zero hor] at h
      cases h
    · rw [orChain_stop hor] at h
      obtain ⟨-, rfl⟩ := Prod.mk.inj (Except.ok.inj h)
      exact ⟨hs, hor⟩
  | succ room ih =>
    by_cases hor : s.current.token = .or
    · rw [orChain_or hor] at h
      obtain ⟨s₁, -, h⟩ := bind_eq_ok_iff.1 h
      obtain ⟨⟨right, s₂⟩, hright, h⟩ := bind_eq_ok_iff.1 h
      exact ih (conjunction_stops hright) h
    · rw [orChain_stop hor] at h
      obtain ⟨-, rfl⟩ := Prod.mk.inj (Except.ok.inj h)
      exact ⟨hs, hor⟩

/-- Behind a filter no connective follows. -/
lemma filter_stops (h : filter ceiling room s = .ok (t, s')) :
    s'.current.token ≠ .and ∧ s'.current.token ≠ .or := by
  obtain ⟨⟨first, s₁⟩, hfirst, h⟩ := bind_eq_ok_iff.1 h
  exact orChain_stops (conjunction_stops hfirst) h

end

lemma tooDeep_ne_syntactic (h : (tooDeep ceiling s : Outcome) = .error stop) :
    stop.error ≠ .syntactic cause position found := by
  obtain rfl := Except.error.inj h
  simp

/-- What the three readers promise about their syntax errors with `room` levels left.  A chain goes on from a
phrase `left` that starts at `s₀`. -/
structure Refuses (ceiling room : Nat) : Prop where
  operand : ∀ {groups position : Nat} {s : TokenStream} {cause : SyntaxCause} {found : String}
    {stop : ParseStop}, operand ceiling room s = .error stop →
    stop.error = .syntactic cause position found → Refused .operand groups s cause position
  andChain : ∀ {groups position : Nat} {s₀ s : TokenStream} {left : Phrase .conjunction}
    {cause : SyntaxCause} {found : String} {stop : ParseStop}, s₀.Passes left.tokens s →
    andChain ceiling room left.toFilter s = .error stop → stop.error = .syntactic cause position found →
    Refused .conjunction groups s₀ cause position
  orChain : ∀ {groups position : Nat} {s₀ s : TokenStream} {left : Phrase .filter}
    {cause : SyntaxCause} {found : String} {stop : ParseStop}, s₀.Passes left.tokens s →
    orChain ceiling room left.toFilter s = .error stop → stop.error = .syntactic cause position found →
    Refused .filter groups s₀ cause position

lemma Refuses.conjunction (refuses : Refuses ceiling room) (h : conjunction ceiling room s = .error stop)
    (herror : stop.error = .syntactic cause position found) :
    Refused .conjunction groups s cause position := by
  rcases bind_eq_error_iff.1 h with hfirst | ⟨⟨first, s₁⟩, hfirst, hchain⟩
  · exact (refuses.operand hfirst herror).first .operand fun _ => rfl
  · obtain ⟨phrase, rfl, -, hpasses⟩ := (sound ceiling room).operand hfirst
    exact @Refuses.andChain _ _ refuses _ _ _ _ (.operand phrase) _ _ _ hpasses hchain herror

lemma Refuses.filter (refuses : Refuses ceiling room) (h : filter ceiling room s = .error stop)
    (herror : stop.error = .syntactic cause position found) : Refused .filter groups s cause position := by
  rcases bind_eq_error_iff.1 h with hfirst | ⟨⟨first, s₁⟩, hfirst, hchain⟩
  · exact (refuses.conjunction hfirst herror).first .conjunction fun _ => rfl
  · obtain ⟨phrase, rfl, -, hpasses⟩ := (sound ceiling room).conjunction hfirst
    exact @Refuses.orChain _ _ refuses _ _ _ _ (.conjunction phrase) _ _ _ hpasses hchain herror

section

variable (ih : ∀ r, room = r + 1 → Refuses ceiling r)

include ih

lemma operand_refused (h : operand ceiling room s = .error stop)
    (herror : stop.error = .syntactic cause position found) : Refused .operand groups s cause position := by
  by_cases hnot : s.current.token = .not
  · match room with
    | 0 =>
      rw [operand_zero (Or.inl hnot)] at h
      exact absurd herror (tooDeep_ne_syntactic h)
    | r + 1 =>
      rw [operand_not hnot] at h
      rcases bind_eq_error_iff.1 h with hfault | ⟨s₁, hstep, h⟩
      · exact absurd herror (advance_ne_syntactic hfault)
      rcases bind_eq_error_iff.1 h with hchild | ⟨_, -, h⟩
      · have hfront : s.Passes [.not] s₁ := hnot ▸ .single (advance_eq_ok_iff.1 hstep)
        exact ((ih r rfl).operand hchild herror).within [.not] [] .not (by simp [Phrase.tokens]) (by simp)
          hfront rfl
      · cases h
  by_cases hgroup : s.current.token = .lparen
  · match room with
    | 0 =>
      rw [operand_zero (Or.inr hgroup)] at h
      exact absurd herror (tooDeep_ne_syntactic h)
    | r + 1 =>
      rw [operand_group hgroup] at h
      rcases bind_eq_error_iff.1 h with hfault | ⟨s₁, hstep, h⟩
      · exact absurd herror (advance_ne_syntactic hfault)
      have hfront : s.Passes [.lparen] s₁ := hgroup ▸ .single (advance_eq_ok_iff.1 hstep)
      rcases bind_eq_error_iff.1 h with hinner | ⟨⟨inner, s₂⟩, hinner, h⟩
      · exact ((ih r rfl).filter hinner herror).within [.lparen] [.rparen] .group (fun _ => rfl)
          (by simpa using Token.spellable_rparen) hfront rfl
      · -- the filter inside is complete, and only a closing parenthesis goes on from it
        obtain ⟨phrase, -, -, hpasses⟩ := (sound ceiling r).filter hinner
        obtain ⟨hand, hor⟩ := filter_stops hinner
        simp only [close] at h
        split at h
        · rcases bind_eq_error_iff.1 h with hfault | ⟨s₃, -, h⟩
          · exact absurd herror (advance_ne_syntactic hfault)
          · cases h
        · rename_i hopen
          obtain ⟨rfl, rfl⟩ := refuse_eq_error h herror
          have hstuck : Stage.Stuck ⟨groups + 1, .more⟩ s₂.current.token :=
            ⟨Stage.step_more hand hor fun hclose => absurd hclose hopen, by simp⟩
          exact .of_stuck (.group phrase) rfl (hfront.append hpasses) rfl
            (by simpa using Token.spellable_rparen) (stage_phrase phrase (groups + 1)) hstuck
  rw [operand_comparison hnot hgroup] at h
  exact comparison_refused hnot hgroup h herror

lemma andChain_refused {s₀ : TokenStream} {left : Phrase .conjunction} (hleft : s₀.Passes left.tokens s)
    (h : andChain ceiling room left.toFilter s = .error stop)
    (herror : stop.error = .syntactic cause position found) :
    Refused .conjunction groups s₀ cause position := by
  by_cases hand : s.current.token = .and
  · match room with
    | 0 =>
      rw [andChain_zero hand] at h
      exact absurd herror (tooDeep_ne_syntactic h)
    | r + 1 =>
      rw [andChain_and hand] at h
      rcases bind_eq_error_iff.1 h with hfault | ⟨s₁, hstep, h⟩
      · exact absurd herror (advance_ne_syntactic hfault)
      rcases bind_eq_error_iff.1 h with hright | ⟨⟨right, s₂⟩, hright, h⟩
      · exact ((ih r rfl).operand hright herror).further joins_and rfl hleft hand hstep
      · obtain ⟨phrase, rfl, -, hpasses⟩ := (sound ceiling r).operand hright
        exact (ih r rfl).andChain (joins_and.passes hleft hand hstep hpasses) h herror
  · rw [andChain_stop hand] at h
    cases h

lemma orChain_refused {s₀ : TokenStream} {left : Phrase .filter} (hleft : s₀.Passes left.tokens s)
    (h : orChain ceiling room left.toFilter s = .error stop)
    (herror : stop.error = .syntactic cause position found) : Refused .filter groups s₀ cause position := by
  by_cases hor : s.current.token = .or
  · match room with
    | 0 =>
      rw [orChain_zero hor] at h
      exact absurd herror (tooDeep_ne_syntactic h)
    | r + 1 =>
      rw [orChain_or hor] at h
      rcases bind_eq_error_iff.1 h with hfault | ⟨s₁, hstep, h⟩
      · exact absurd herror (advance_ne_syntactic hfault)
      rcases bind_eq_error_iff.1 h with hright | ⟨⟨right, s₂⟩, hright, h⟩
      · exact ((ih r rfl).conjunction hright herror).further joins_or rfl hleft hor hstep
      · obtain ⟨phrase, rfl, -, hpasses⟩ := (sound ceiling r).conjunction hright
        exact (ih r rfl).orChain (joins_or.passes hleft hor hstep hpasses) h herror
  · rw [orChain_stop hor] at h
    cases h

end

/-- The syntax errors of the readers are at the right place. -/
lemma refuses (ceiling room : Nat) : Refuses ceiling room :=
  of_fewer (fun _ ih => ⟨operand_refused ih, andChain_refused ih, orChain_refused ih⟩) room

end Grammar

/-! ### Whole queries -/

namespace Filter

open Grammar (Refused Stage)

variable {maxNesting position : Nat} {cause : SyntaxCause} {found : String}

/-- What a query is refused for, from its first token on. -/
lemma parse_refused {s : TokenStream}
    (h : (Parser.mk s 0 maxNesting).parse.1 = .error (.syntactic cause position found)) :
    Refused .filter 0 s cause position := by
  simp only [Parser.parse, Parser.expression, Parser.room, Nat.sub_zero] at h
  by_cases hempty : s.current.token = .eof
  · rw [if_pos hempty] at h
    obtain ⟨rfl, rfl, -⟩ := ParseError.syntactic.inj (Except.error.inj h)
    have hstuck : Stage.Stuck ⟨0, .operand⟩ s.current.token := ⟨by rw [hempty]; rfl, by simp⟩
    exact .of_stuck (.conjunction (.operand .leaf)) rfl (.refl s) rfl Phrase.spellable_leaf rfl hstuck
  rw [if_neg hempty] at h
  cases hfilter : Grammar.filter maxNesting maxNesting s with
  | error stop =>
    simp only [hfilter] at h
    exact (Grammar.refuses maxNesting maxNesting).filter hfilter (Except.error.inj h)
  | ok read =>
    obtain ⟨t, s'⟩ := read
    simp only [hfilter] at h
    by_cases hend : s'.current.token = .eof
    · rw [if_pos hend] at h
      cases h
    · -- the tokens so far are a query, and nothing but a connective goes on from it
      rw [if_neg hend] at h
      obtain ⟨rfl, rfl, -⟩ := ParseError.syntactic.inj (Except.error.inj h)
      obtain ⟨phrase, -, -, hpasses⟩ := (Grammar.sound maxNesting maxNesting).filter hfilter
      obtain ⟨hand, hor⟩ := Grammar.filter_stops hfilter
      have hstuck : Stage.Stuck ⟨0, .more⟩ s'.current.token :=
        ⟨Stage.step_more hand hor fun _ => rfl, fun heof => absurd heof hend⟩
      exact .of_stuck phrase rfl hpasses (List.append_nil _).symm (by simp) (Grammar.stage_phrase phrase 0)
        hstuck

lemma parseWithin_refused {text : String}
    (h : parseWithin maxNesting text = .error (.syntactic cause position found)) :
    ∃ s : TokenStream, (Lexer.ofText text).next = (.ok s.current, s.lexer) ∧
      Refused .filter 0 s cause position := by
  cases hfirst : (Lexer.ofText text).next with
  | mk read lexer =>
    cases read with
    | error e =>
      simp only [parseWithin, Parser.ofText, hfirst] at h
      cases h
    | ok spanned =>
      rw [parseWithin_of_next (s := ⟨spanned, lexer⟩) hfirst] at h
      exact ⟨⟨spanned, lexer⟩, rfl, parse_refused h⟩

/-- **A syntax error is at the first token that cannot be there.**  Let a query be refused for its syntax at
some place.  A token starts there, possibly the end of the text.  The tokens that start before that place are the
beginning of a query, but together with the token at the place they are not, and if that token is the end, they
are no query as they stand.  An operator that does not go with its literal is an error at the literal. -/
theorem syntacticError_at_first_impossible_token {text : String}
    (h : parseWithin maxNesting text = .error (.syntactic cause position found)) :
    ∃ before u after, (Lexer.ofText text).readable = before ++ u :: after ∧
      (∀ v ∈ before, v.position < position) ∧ u.position = position ∧
      (∀ v ∈ after, position < v.position) ∧
      StartsQuery (before.map (·.token)) ∧
      (if u.token = .eof then ¬ IsQuery (before.map (·.token))
        else ¬ StartsQuery (before.map (·.token) ++ [u.token])) ∧
      (cause.isPairing = true → ∃ value, u.token = .literal value) := by
  obtain ⟨s, hfirst, us, s', ⟨hpasses, ⟨phrase, more, htokens, hmore⟩, ⟨stage, hrun, hstuck⟩, hpairing⟩, rfl⟩ :=
    parseWithin_refused h
  have hus : .eof ∉ us := by
    intro heof
    exact phrase.eof_notMem_tokens (htokens ▸ List.mem_append_left more heof)
  obtain ⟨before, after, hreadable, rfl⟩ := hpasses.readable hfirst hus
  have hplaces := @Lexer.pairwise_readable (Lexer.ofText text) List.suffix_rfl
  rw [hreadable, List.pairwise_append, List.pairwise_cons] at hplaces
  obtain ⟨-, ⟨hafter, -⟩, hbefore⟩ := hplaces
  refine ⟨before, s'.current, after, hreadable, fun v hv => hbefore v hv _ (by simp), rfl, hafter, ?_, ?_,
    hpairing⟩
  · -- what has been read can be written, and so can what the phrase goes on with
    obtain ⟨mid, hlexes, -⟩ := Lexer.lexes_append_iff.1 (hpasses.lexes hfirst)
    refine ⟨more, isQuery_iff.2 ⟨⟨phrase, htokens⟩, fun u hu => ?_⟩⟩
    rcases List.mem_append.1 hu with hu | hu
    · exact hlexes.spellable hus u hu
    · exact hmore u hu
  · split
    · rename_i heof
      intro hquery
      obtain ⟨⟨whole, hwhole⟩, -⟩ := isQuery_iff.1 hquery
      rw [heof] at hstuck
      exact hstuck.tokens_ne_of_eof hrun whole hwhole
    · rintro ⟨more', hquery⟩
      obtain ⟨⟨whole, hwhole⟩, -⟩ := isQuery_iff.1 hquery
      rw [List.append_assoc] at hwhole
      exact hstuck.tokens_ne hrun whole hwhole

theorem syntacticError_at_first_impossible_token_pairing :
    parseWithin 2 "a eq 1 and (b in 5 or" =
        .error (.syntactic (.requiresArray .isIn) 17 "scalar literal") ∧
      ∃ before u after, (Lexer.ofText "a eq 1 and (b in 5 or").readable = before ++ u :: after ∧
        u.position = 17 ∧ StartsQuery (before.map (·.token)) ∧
        ¬ StartsQuery (before.map (·.token) ++ [u.token]) := by
  have hrefused : parseWithin 2 "a eq 1 and (b in 5 or" =
      .error (.syntactic (.requiresArray .isIn) 17 "scalar literal") := by rfl
  obtain ⟨before, u, after, hreadable, -, hposition, -, hstarts, hstuck, hpairing⟩ :=
    syntacticError_at_first_impossible_token hrefused
  obtain ⟨value, hvalue⟩ := hpairing rfl
  rw [if_neg (by simp [hvalue])] at hstuck
  exact ⟨hrefused, before, u, after, hreadable, hposition, hstarts, hstuck⟩

end Filter

end FilterLang
