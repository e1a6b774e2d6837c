import Mathlib.Data.List.Perm.Basic
import Mathlib.Data.List.Count

/-! Boxes of letters and the log of what went in and out of them. A letter that finds no box is
refused. Boxes are told apart by `ι`, and a letter is known by its key. -/
namespace Lib.Mailbox

inductive Mail (ι α ρ : Type*) where
  | put (box : ι) (letter : α)
  | take (box : ι) (letter : α)
  | refuse (key : ρ)

section
variable {ι α ρ : Type*} [DecidableEq ι]

def Mail.accepted (i : ι) : Mail ι α ρ → Option α
  | .put box letter => if box = i then some letter else none
  | .take _ _ | .refuse _ => none

def Mail.delivered (i : ι) : Mail ι α ρ → Option α
  | .take box letter => if box = i then some letter else none
  | .put _ _ | .refuse _ => none

def accepted (i : ι) (log : List (Mail ι α ρ)) : List α := log.filterMap (Mail.accepted i)

def delivered (i : ι) (log : List (Mail ι α ρ)) : List α := log.filterMap (Mail.delivered i)

@[simp] theorem accepted_append (i : ι) (log more : List (Mail ι α ρ)) :
    accepted i (log ++ more) = accepted i log ++ accepted i more := List.filterMap_append

@[simp] theorem delivered_append (i : ι) (log more : List (Mail ι α ρ)) :
    delivered i (log ++ more) = delivered i log ++ delivered i more := List.filterMap_append

@[simp] theorem accepted_put (i j : ι) (letter : α) :
    accepted i ([.put j letter] : List (Mail ι α ρ)) = if j = i then [letter] else [] := by
  by_cases same : j = i <;> simp [accepted, Mail.accepted, same]

@[simp] theorem delivered_put (i j : ι) (letter : α) :
    delivered i ([.put j letter] : List (Mail ι α ρ)) = [] := rfl

@[simp] theorem accepted_refuse (i : ι) (r : ρ) :
    accepted i ([.refuse r] : List (Mail ι α ρ)) = [] := rfl

@[simp] theorem delivered_refuse (i : ι) (r : ρ) :
    delivered i ([.refuse r] : List (Mail ι α ρ)) = [] := rfl

@[simp] theorem accepted_takes (i j : ι) (queue : List α) :
    accepted i (queue.map (.take j) : List (Mail ι α ρ)) = [] := by
  induction queue with
  | nil => rfl
  | cons letter rest ih => exact ih

@[simp] theorem delivered_takes (i j : ι) (queue : List α) :
    delivered i (queue.map (.take j) : List (Mail ι α ρ)) = if j = i then queue else [] := by
  induction queue with
  | nil => simp [delivered]
  | cons letter rest ih =>
    unfold delivered at ih ⊢
    by_cases same : j = i <;> simp_all [Mail.delivered]

end

section
variable {ι α ρ : Type*}

def Mail.closes (key : α → ρ) : Mail ι α ρ → Option ρ
  | .take _ letter => some (key letter)
  | .refuse r => some r
  | .put _ _ => none

def closed (key : α → ρ) (log : List (Mail ι α ρ)) : List ρ := log.filterMap (Mail.closes key)

def waiting (key : α → ρ) (boxes : List (ι × List α)) : List ρ :=
  boxes.flatMap fun box => box.2.map key

variable (key : α → ρ)

@[simp] theorem closed_append (log more : List (Mail ι α ρ)) :
    closed key (log ++ more) = closed key log ++ closed key more := List.filterMap_append

@[simp] theorem closed_put (i : ι) (letter : α) :
    closed key ([.put i letter] : List (Mail ι α ρ)) = [] := rfl

@[simp] theorem closed_refuse (r : ρ) : closed key ([.refuse r] : List (Mail ι α ρ)) = [r] := rfl

@[simp] theorem closed_takes (i : ι) (queue : List α) :
    closed key (queue.map (.take i) : List (Mail ι α ρ)) = queue.map key := by
  induction queue with
  | nil => rfl
  | cons letter rest ih => exact congrArg (key letter :: ·) ih

@[simp] theorem waiting_cons (box : ι × List α) (boxes : List (ι × List α)) :
    waiting key (box :: boxes) = box.2.map key ++ waiting key boxes := List.flatMap_cons

end

variable {ι α ρ : Type*} [DecidableEq ι] [DecidableEq ρ]

/-- Every letter sent was taken out, was refused or still waits, as often as it was sent, and boxes
are emptied in the order in which they were filled. -/
structure Accounted (key : α → ρ) (boxes : List (ι × List α)) (log : List (Mail ι α ρ))
    (sent : List ρ) : Prop where
  once : ∀ r, sent.count r = (closed key log).count r + (waiting key boxes).count r
  held : ∀ box ∈ boxes, accepted box.1 log = delivered box.1 log ++ box.2
  gone : ∀ i, i ∉ boxes.map Prod.fst → accepted i log = delivered i log
  nodup : (boxes.map Prod.fst).Nodup

variable {key : α → ρ} {boxes boxes' : List (ι × List α)} {log : List (Mail ι α ρ)}
  {sent : List ρ} {i : ι} {queue : List α}

theorem accounted_start : Accounted key ([] : List (ι × List α)) [] [] := by
  refine ⟨fun _ => rfl, ?_, fun _ _ => rfl, List.nodup_nil⟩
  intro box member
  cases member

theorem Accounted.perm (accounted : Accounted key boxes log sent) (same : boxes.Perm boxes') :
    Accounted key boxes' log sent := by
  have names := same.map Prod.fst
  refine ⟨?_, ?_, ?_, names.nodup_iff.1 accounted.nodup⟩
  · intro r
    rw [accounted.once r]
    exact congrArg _ ((same.flatMap_right _).count_eq r)
  · intro box member
    exact accounted.held box (same.mem_iff.2 member)
  · intro j away
    exact accounted.gone j fun member => away (names.mem_iff.1 member)

theorem Accounted.opened (accounted : Accounted key boxes log sent)
    (fresh : i ∉ boxes.map Prod.fst) : Accounted key ((i, []) :: boxes) log sent := by
  refine ⟨accounted.once, ?_, ?_, List.nodup_cons.2 ⟨fresh, accounted.nodup⟩⟩
  · refine List.forall_mem_cons.2 ⟨?_, accounted.held⟩
    exact (accounted.gone i fresh).trans (List.append_nil _).symm
  · intro j away
    exact accounted.gone j fun member => away (List.mem_cons_of_mem _ member)

theorem Accounted.shut (accounted : Accounted key ((i, []) :: boxes) log sent) :
    Accounted key boxes log sent := by
  obtain ⟨empty, held⟩ := List.forall_mem_cons.1 accounted.held
  refine ⟨accounted.once, held, ?_, (List.nodup_cons.1 accounted.nodup).2⟩
  intro j away
  by_cases same : j = i
  · rw [same, empty, List.append_nil]
  · exact accounted.gone j fun member => (List.mem_cons.1 member).elim same away

theorem Accounted.refused (accounted : Accounted key boxes log sent) (r : ρ) :
    Accounted key boxes (log ++ [.refuse r]) (sent ++ [r]) := by
  refine ⟨?_, ?_, ?_, accounted.nodup⟩
  · intro q
    have once := accounted.once q
    simp only [closed_append, closed_refuse, List.count_append]
    omega
  · intro box member
    simpa using accounted.held box member
  · intro j away
    simpa using accounted.gone j away

/-- The log of one box grows, and the others do not notice. -/
theorem Accounted.moved {queue' : List α} {more : List (Mail ι α ρ)} {new : List ρ}
    (accounted : Accounted key ((i, queue) :: boxes) log sent)
    (here : queue ++ accepted i more = delivered i more ++ queue')
    (away : ∀ j, j ≠ i → accepted j more = [] ∧ delivered j more = [])
    (once : ∀ r, (queue.map key).count r + new.count r =
      (closed key more).count r + (queue'.map key).count r) :
    Accounted key ((i, queue') :: boxes) (log ++ more) (sent ++ new) := by
  obtain ⟨first, held⟩ := List.forall_mem_cons.1 accounted.held
  obtain ⟨fresh, nodup⟩ := List.nodup_cons.1 accounted.nodup
  refine ⟨?_, List.forall_mem_cons.2 ⟨?_, ?_⟩, ?_, List.nodup_cons.2 ⟨fresh, nodup⟩⟩
  · intro r
    have before := accounted.once r
    have change := once r
    simp only [waiting_cons, closed_append, List.count_append] at before ⊢
    omega
  · rw [accepted_append, delivered_append, first, List.append_assoc, here, List.append_assoc]
  · intro box member
    have different : box.1 ≠ i := fun same => fresh (List.mem_map.2 ⟨box, member, same⟩)
    obtain ⟨none, nothing⟩ := away box.1 different
    rw [accepted_append, delivered_append, none, nothing, List.append_nil, List.append_nil]
    exact held box member
  · intro j absent
    have different : j ≠ i := fun same => absent (same ▸ List.mem_cons_self ..)
    obtain ⟨none, nothing⟩ := away j different
    rw [accepted_append, delivered_append, none, nothing, List.append_nil, List.append_nil]
    exact accounted.gone j absent

theorem Accounted.put (accounted : Accounted key ((i, queue) :: boxes) log sent) (letter : α) :
    Accounted key ((i, queue ++ [letter]) :: boxes) (log ++ [.put i letter])
      (sent ++ [key letter]) := by
  apply accounted.moved
  · simp
  · intro j different
    simp [Ne.symm different]
  · intro r
    simp

theorem Accounted.emptied (accounted : Accounted key ((i, queue) :: boxes) log sent) :
    Accounted key ((i, []) :: boxes) (log ++ queue.map (.take i)) sent := by
  rw [← List.append_nil sent]
  apply accounted.moved
  · simp
  · intro j different
    simp [Ne.symm different]
  · intro r
    simp

end Lib.Mailbox
