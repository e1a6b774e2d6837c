import Mathlib.Data.List.Basic

/-! A client that works through a plan of requests, one outstanding at a time, until an answer
reports an error or a request cannot be sent. -/
namespace Lib.Dialogue

variable {Q A W E : Type*}

/-- Whether a request can be sent, and its answer if so. -/
structure Turn (A : Type*) where
  sent : Bool
  answer : A

def nextSent : List (Turn A) → Bool
  | [] => true
  | turn :: _ => turn.sent

/-- The client reacts to each answer, and sends its next request as the turn after that says. -/
def converse (react : W → A → Bool → Option W) (ended : W → Bool) : W → List (Turn A) → Option W
  | w, [] => some w
  | w, turn :: rest =>
    if ended w then some w
    else (react w turn.answer (nextSent rest)).bind fun next => converse react ended next rest

def allSent (answers : List A) : List (Turn A) := answers.map fun answer => ⟨true, answer⟩

/-- How far the plan got: the exchanges that went well, and the request after them. -/
inductive Progress (Q A E : Type*) where
  | waiting (past : List (Q × A)) (current : Q)
  | stopped (past : List (Q × A)) (current : Q) (error : E)
  | finished (past : List (Q × A))

def Progress.issued : Progress Q A E → List Q
  | .waiting past current => past.map Prod.fst ++ [current]
  | .stopped past current _ => past.map Prod.fst ++ [current]
  | .finished past => past.map Prod.fst

def follow (busy : E) (verdict : Q → A → Option E) :
    List (Q × A) → List Q → List (Turn A) → Progress Q A E
  | past, [], _ => .finished past
  | past, q :: _, [] => .waiting past q
  | past, q :: rest, turn :: turns =>
    if turn.sent then
      match verdict q turn.answer with
      | some error => .stopped past q error
      | none => follow busy verdict (past ++ [(q, turn.answer)]) rest turns
    else .stopped past q busy

section
variable {busy error : E} {verdict : Q → A → Option E} {past : List (Q × A)} {q : Q} {rest : List Q}
  {turn : Turn A} {turns : List (Turn A)}

theorem follow_fails (sent : turn.sent = true) (outcome : verdict q turn.answer = some error) :
    follow busy verdict past (q :: rest) (turn :: turns) = .stopped past q error := by
  simp [follow, sent, outcome]

theorem follow_goesOn (sent : turn.sent = true) (outcome : verdict q turn.answer = none) :
    follow busy verdict past (q :: rest) (turn :: turns) =
      follow busy verdict (past ++ [(q, turn.answer)]) rest turns := by
  simp [follow, sent, outcome]

theorem follow_unsent (unsent : turn.sent = false) :
    follow busy verdict past (q :: rest) (turn :: turns) = .stopped past q busy := by
  simp [follow, unsent]

/-- The requests go out in the plan's order, each once. -/
theorem follow_prefix (busy : E) (verdict : Q → A → Option E) (past : List (Q × A)) (plan : List Q)
    (turns : List (Turn A)) :
    (follow busy verdict past plan turns).issued <+: past.map Prod.fst ++ plan := by
  induction plan generalizing past turns with
  | nil =>
    rw [List.append_nil]
    exact List.prefix_rfl
  | cons q rest ih =>
    have first : past.map Prod.fst ++ [q] <+: past.map Prod.fst ++ q :: rest :=
      (List.prefix_append_right_inj _).2 ⟨rest, rfl⟩
    cases turns with
    | nil => exact first
    | cons turn turns =>
      cases sent : turn.sent with
      | false =>
        rw [follow_unsent sent]
        exact first
      | true =>
        cases outcome : verdict q turn.answer with
        | some error =>
          rw [follow_fails sent outcome]
          exact first
        | none =>
          rw [follow_goesOn sent outcome]
          simpa using ih (past ++ [(q, turn.answer)]) turns

theorem follow_allSent (fine : ∀ q a, verdict q a = none) {plan : List Q} {answers : List A}
    (long : plan.length = answers.length) :
    follow busy verdict past plan (allSent answers) = .finished (past ++ plan.zip answers) := by
  induction plan generalizing past answers with
  | nil => simp [follow]
  | cons q rest ih =>
    cases answers with
    | nil => cases long
    | cons answer answers =>
      have further : rest.length = answers.length := Nat.succ.inj long
      change follow busy verdict past (q :: rest) (⟨true, answer⟩ :: allSent answers) = _
      rw [follow_goesOn rfl (fine q answer), ih further, List.append_assoc]
      rfl

theorem follow_finished {plan : List Q} {past' : List (Q × A)}
    (ends : follow busy verdict past plan turns = .finished past') :
    past'.map Prod.fst = past.map Prod.fst ++ plan := by
  induction plan generalizing past turns with
  | nil =>
    cases ends
    rw [List.append_nil]
  | cons q rest ih =>
    cases turns with
    | nil => cases ends
    | cons turn turns =>
      cases sent : turn.sent with
      | false =>
        rw [follow_unsent sent] at ends
        cases ends
      | true =>
        cases outcome : verdict q turn.answer with
        | some error =>
          rw [follow_fails sent outcome] at ends
          cases ends
        | none =>
          rw [follow_goesOn sent outcome] at ends
          simpa using ih ends

theorem follow_stopped {plan : List Q} {past' : List (Q × A)} {last : Q}
    (ends : follow busy verdict past plan turns = .stopped past' last error) :
    error = busy ∨ ∃ q a, verdict q a = some error := by
  induction plan generalizing past turns with
  | nil => cases ends
  | cons q rest ih =>
    cases turns with
    | nil => cases ends
    | cons turn turns =>
      cases sent : turn.sent with
      | false =>
        rw [follow_unsent sent] at ends
        cases ends
        exact .inl rfl
      | true =>
        cases outcome : verdict q turn.answer with
        | some error =>
          rw [follow_fails sent outcome] at ends
          cases ends
          exact .inr ⟨_, _, outcome⟩
        | none =>
          rw [follow_goesOn sent outcome] at ends
          exact ih ends

end

def Answered (answers : Q → A → Prop) (plan : List Q) (turns : List (Turn A)) : Prop :=
  ∀ pair ∈ plan.zip turns, answers pair.1 pair.2.answer

theorem answered_cons {answers : Q → A → Prop} {q : Q} {plan : List Q} {turn : Turn A}
    {turns : List (Turn A)} (answered : Answered answers (q :: plan) (turn :: turns)) :
    answers q turn.answer ∧ Answered answers plan turns := by
  constructor
  · exact answered (q, turn) List.mem_cons_self
  · intro pair inside
    exact answered pair (List.mem_cons_of_mem _ inside)

theorem nextSent_allSent (answers : List A) : nextSent (allSent answers) = true := by
  cases answers with
  | nil => rfl
  | cons answer rest => rfl

theorem answered_allSent {answers : Q → A → Prop} {plan : List Q} {given : List A}
    (good : List.Forall₂ answers plan given) : Answered answers plan (allSent given) := by
  induction good with
  | nil => exact List.forall_mem_nil _
  | cons answer _ ih => exact List.forall_mem_cons.2 ⟨answer, ih⟩

/-- The states of a client that follows its plan: what one reaction does in each case. -/
structure KeepsPlan (react : W → A → Bool → Option W) (ended : W → Bool) (answers : Q → A → Prop)
    (busy : E) (verdict : Q → A → Option E) (Awaits : W → List (Q × A) → Q → List Q → Prop)
    (Stopped : W → List (Q × A) → Q → E → Prop) (Finished : W → List (Q × A) → Prop) : Prop where
  awaiting : ∀ {w past q rest}, Awaits w past q rest → ended w = false
  stopped : ∀ {w past q error}, Stopped w past q error → ended w = true
  finished : ∀ {w past}, Finished w past → ended w = true
  fails : ∀ {w past q rest a error}, Awaits w past q rest → answers q a →
    verdict q a = some error → ∀ sent, ∃ next, react w a sent = some next ∧ Stopped next past q error
  last : ∀ {w past q a}, Awaits w past q [] → answers q a → verdict q a = none →
    ∀ sent, ∃ next, react w a sent = some next ∧ Finished next (past ++ [(q, a)])
  goesOn : ∀ {w past q r rest a}, Awaits w past q (r :: rest) → answers q a → verdict q a = none →
    ∃ next, react w a true = some next ∧ Awaits next (past ++ [(q, a)]) r rest
  busy : ∀ {w past q r rest a}, Awaits w past q (r :: rest) → answers q a → verdict q a = none →
    ∃ next, react w a false = some next ∧ Stopped next (past ++ [(q, a)]) r busy

section
variable {react : W → A → Bool → Option W} {ended : W → Bool} {answers : Q → A → Prop} {busy : E}
  {verdict : Q → A → Option E} {Awaits : W → List (Q × A) → Q → List Q → Prop}
  {Stopped : W → List (Q × A) → Q → E → Prop} {Finished : W → List (Q × A) → Prop}

def Reached (Awaits : W → List (Q × A) → Q → List Q → Prop)
    (Stopped : W → List (Q × A) → Q → E → Prop) (Finished : W → List (Q × A) → Prop) (w : W) :
    Progress Q A E → Prop
  | .waiting past current => ∃ rest, Awaits w past current rest
  | .stopped past current error => Stopped w past current error
  | .finished past => Finished w past

theorem converse_ended {w : W} (ends : ended w = true) (turns : List (Turn A)) :
    converse react ended w turns = some w := by
  cases turns with
  | nil => rfl
  | cons turn rest =>
    unfold converse
    rw [if_pos ends]

theorem converse_open {w next : W} {turn : Turn A} {rest : List (Turn A)} (ends : ended w = false)
    (reacted : react w turn.answer (nextSent rest) = some next) :
    converse react ended w (turn :: rest) = converse react ended next rest := by
  rw [converse, ends, if_neg Bool.false_ne_true, reacted, Option.bind_some]

/-- The induction is on the turns; each one either ends the dialogue or shortens the plan. -/
theorem KeepsPlan.run
    (keeps : KeepsPlan react ended answers busy verdict Awaits Stopped Finished)
    {w : W} {past : List (Q × A)} {q : Q} {rest : List Q} {turns : List (Turn A)}
    (start : Awaits w past q rest) (sent : nextSent turns = true)
    (answered : Answered answers (q :: rest) turns) :
    ∃ w', converse react ended w turns = some w' ∧
      Reached Awaits Stopped Finished w' (follow busy verdict past (q :: rest) turns) := by
  induction turns generalizing w past q rest with
  | nil => exact ⟨w, rfl, rest, start⟩
  | cons turn turns ih =>
    obtain ⟨answer, further⟩ := answered_cons answered
    have first : turn.sent = true := sent
    cases outcome : verdict q turn.answer with
    | some error =>
      obtain ⟨next, reacted, stopped⟩ := keeps.fails start answer outcome (nextSent turns)
      refine ⟨next, ?_, ?_⟩
      · rw [converse_open (keeps.awaiting start) reacted]
        exact converse_ended (keeps.stopped stopped) turns
      · rw [follow_fails first outcome]
        exact stopped
    | none =>
      rw [follow_goesOn first outcome]
      cases rest with
      | nil =>
        obtain ⟨next, reacted, finished⟩ := keeps.last start answer outcome (nextSent turns)
        refine ⟨next, ?_, ?_⟩
        · rw [converse_open (keeps.awaiting start) reacted]
          exact converse_ended (keeps.finished finished) turns
        · exact finished
      | cons r rest =>
        cases more : nextSent turns with
        | true =>
          obtain ⟨next, reacted, awaits⟩ := keeps.goesOn start answer outcome
          obtain ⟨w', ran, reached⟩ := ih awaits more further
          refine ⟨w', ?_, ?_⟩
          · rw [converse_open (keeps.awaiting start) (more ▸ reacted)]
            exact ran
          · exact reached
        | false =>
          obtain ⟨next, reacted, stopped⟩ := keeps.busy start answer outcome
          refine ⟨next, ?_, ?_⟩
          · rw [converse_open (keeps.awaiting start) (more ▸ reacted)]
            exact converse_ended (keeps.stopped stopped) turns
          · cases turns with
            | nil => cases more
            | cons failed turns =>
              rw [follow_unsent more]
              exact stopped

end

end Lib.Dialogue
