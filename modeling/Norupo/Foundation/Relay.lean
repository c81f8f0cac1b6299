import Norupo.Foundation.Channel

/-!
# Relaying a log through a bounded channel

One producer reads a log and passes the elements meant for a consumer on through a bounded channel.
While it waits for a slot it holds one element in its hands. The relay is open as long as the
producer looks the consumer up; once closed it ignores the rest of the log, for good. Elements are
accepted in the order of the log and without gaps, and the number of elements the producer was given
decides whether it is stuck behind a consumer that takes nothing.
-/

namespace Async

/-- A bounded channel with the element in the producer's hands and both ends' histories. -/
@[ext]
structure Relay (α : Type*) where
  channel : Channel α
  /-- The element the producer waits to send. -/
  hand : Option α
  /-- What the consumer has taken, oldest first. -/
  taken : List α
  /-- How many elements the producer has been given. -/
  offered : Nat
  /-- The producer still accepts elements. -/
  isOpen : Prop
  /-- What the log holds for the consumer, oldest first. -/
  sent : List α

namespace Relay

variable {α : Type*} {n : Nat} {fresh : Prop} {r r' : Relay α}

/-- An open relay that has seen nothing. -/
def new (n : Nat) : Relay α := ⟨Channel.new n, none, [], 0, True, []⟩

/-- Accepted and not yet taken, oldest first. -/
def waiting (r : Relay α) : List α := r.channel.queue ++ r.hand.toList

/-- Everything accepted, oldest first. -/
def accepted (r : Relay α) : List α := r.taken ++ r.waiting

/-- The producer waits for a slot. -/
def Stuck (r : Relay α) : Prop := r.hand.isSome = true ∧ r.channel.poll = .pending

/-- The steps of a relay. A step may close the relay whatever else it does; a relay that has not
been used may be set up. -/
inductive Step (n : Nat) (fresh : Prop) (r : Relay α) : Relay α → Prop
  | quiet {b} : (b → r.isOpen) → Step n fresh r { r with isOpen := b }
  | accept (a : α) : r.isOpen → r.hand = none →
      Step n fresh r { r with hand := some a, offered := r.offered + 1, sent := r.sent ++ [a] }
  | ignore (as : List α) : ¬ r.isOpen → Step n fresh r { r with sent := r.sent ++ as }
  | push {a b} : r.hand = some a → r.channel.poll = .ready → (b → r.isOpen) →
      Step n fresh r { r with hand := none, channel := r.channel.push a, isOpen := b }
  | lose {a} : r.hand = some a → r.channel.poll = .closed →
      Step n fresh r { r with hand := none, isOpen := False }
  | take {a rest} : r.channel.queue = a :: rest →
      Step n fresh r { r with channel := r.channel.pop, taken := r.taken ++ [a] }
  | hangUp {b} : (b → r.isOpen) →
      Step n fresh r { r with channel := r.channel.dropRx, isOpen := b }
  | restart : fresh → Step n fresh r (new n)

theorem Step.of_eq {q : Relay α} (h : Step n fresh r q) (he : r' = q) : Step n fresh r r' := he ▸ h

/-- A step that changes nothing, except that it may close the relay. -/
theorem Step.of_quiet (hc : r'.channel = r.channel) (hh : r'.hand = r.hand)
    (ht : r'.taken = r.taken) (hn : r'.offered = r.offered) (hs : r'.sent = r.sent)
    (ho : r'.isOpen → r.isOpen) : Step n fresh r r' := by
  have heq : r' = { r with isOpen := r'.isOpen } := by
    cases r'
    simp_all
  exact heq ▸ .quiet ho

/-- A step that drops the receiver, and may close the relay. -/
theorem Step.of_hangUp (hc : r'.channel = r.channel.dropRx) (hh : r'.hand = r.hand)
    (ht : r'.taken = r.taken) (hn : r'.offered = r.offered) (hs : r'.sent = r.sent)
    (ho : r'.isOpen → r.isOpen) : Step n fresh r r' := by
  have heq : r' = { r with channel := r.channel.dropRx, isOpen := r'.isOpen } := by
    cases r'
    simp_all
  exact heq ▸ .hangUp ho

/-- The elements accepted are those the log holds, up to the moment the relay is closed. -/
structure Faithful (r : Relay α) : Prop where
  open_eq : r.isOpen → r.accepted = r.sent
  isPrefix : r.accepted <+: r.sent

theorem Faithful.new (n : Nat) : Faithful (new n : Relay α) := ⟨fun _ => rfl, List.prefix_rfl⟩

/-- What one step does to the elements accepted: nothing, though the relay may be closed and then
the log runs ahead; or it accepts the next element; or it loses the element in hand, because the
consumer is gone; or it starts afresh. -/
theorem Step.accepted_cases (h : Step n fresh r r') :
    (r'.accepted = r.accepted ∧ r.sent <+: r'.sent ∧
      (r'.isOpen → r.isOpen ∧ r'.sent = r.sent)) ∨
    (∃ a, r.isOpen ∧ r'.accepted = r.accepted ++ [a] ∧ r'.sent = r.sent ++ [a]) ∨
    (r'.channel.rxOpen = false ∧ ¬ r'.isOpen ∧ r'.accepted <+: r.accepted ∧
      r'.sent = r.sent) ∨
    (fresh ∧ r' = Relay.new n) := by
  cases h with
  | quiet hb => exact .inl ⟨rfl, List.prefix_rfl, fun ho => ⟨hb ho, rfl⟩⟩
  | accept a ho hh => exact .inr (.inl ⟨a, ho, by simp [accepted, waiting, hh], rfl⟩)
  | ignore as hc =>
    exact .inl ⟨rfl, List.prefix_append _ _, fun ho => absurd ho hc⟩
  | push hh _ hb =>
    exact .inl ⟨by simp [accepted, waiting, hh], List.prefix_rfl, fun ho => ⟨hb ho, rfl⟩⟩
  | lose hh hp =>
    refine .inr (.inr (.inl ⟨Channel.poll_eq_closed.mp hp, id, ?_, rfl⟩))
    simp [accepted, waiting, hh]
  | take hq => exact .inl ⟨by simp [accepted, waiting, hq], List.prefix_rfl, fun ho => ⟨ho, rfl⟩⟩
  | hangUp hb => exact .inl ⟨rfl, List.prefix_rfl, fun ho => ⟨hb ho, rfl⟩⟩
  | restart hf => exact .inr (.inr (.inr ⟨hf, rfl⟩))

/-- Elements that have been accepted stay accepted, as long as there is a consumer. -/
theorem Step.accepted_mono (h : Step n fresh r r') (hf : ¬ fresh)
    (hx : r'.channel.rxOpen = true) : r.accepted <+: r'.accepted := by
  rcases h.accepted_cases with ⟨ha, -⟩ | ⟨a, -, ha, -⟩ | ⟨hc, -⟩ | ⟨hn, -⟩
  · exact ha ▸ List.prefix_rfl
  · exact ha ▸ List.prefix_append _ _
  · simp [hc] at hx
  · exact absurd hn hf

/-- The log only grows. -/
theorem Step.sent_mono (h : Step n fresh r r') (hf : ¬ fresh) : r.sent <+: r'.sent := by
  rcases h.accepted_cases with ⟨-, hs, -⟩ | ⟨a, -, -, hs⟩ | ⟨-, -, -, hs⟩ | ⟨hn, -⟩
  · exact hs
  · exact hs ▸ List.prefix_append _ _
  · exact hs ▸ List.prefix_rfl
  · exact absurd hn hf

/-- Elements that have been taken stay taken. -/
theorem Step.taken_mono (h : Step n fresh r r') (hf : ¬ fresh) : r.taken <+: r'.taken := by
  cases h with
  | take _ => exact List.prefix_append _ _
  | restart hn => exact absurd hn hf
  | _ => exact List.prefix_rfl

/-- A relay that has been closed stays closed. -/
theorem Step.isOpen_of (h : Step n fresh r r') (hf : ¬ fresh) (ho : r'.isOpen) : r.isOpen := by
  rcases h.accepted_cases with ⟨-, -, hc⟩ | ⟨a, ha, -⟩ | ⟨-, hc, -⟩ | ⟨hn, -⟩
  · exact (hc ho).1
  · exact ha
  · exact absurd ho hc
  · exact absurd hn hf

/-- A consumer that is gone does not come back. -/
theorem Step.rxOpen_of (h : Step n fresh r r') (hf : ¬ fresh)
    (hx : r'.channel.rxOpen = true) : r.channel.rxOpen = true := by
  cases h with
  | hangUp _ => cases hx
  | restart hn => exact absurd hn hf
  | _ => exact hx

/-- A closed relay that has passed on everything is done. -/
theorem Step.idle (h : Step n fresh r r') (hf : ¬ fresh) (ho : ¬ r.isOpen) (hw : r.waiting = []) :
    r'.waiting = [] ∧ r'.taken = r.taken := by
  obtain ⟨hqueue, hhand⟩ := List.append_eq_nil_iff.mp hw
  cases h with
  | quiet _ => exact ⟨hw, rfl⟩
  | accept a ha _ => exact absurd ha ho
  | ignore as _ => exact ⟨hw, rfl⟩
  | push hh _ _ => simp [hh] at hhand
  | lose hh _ => simp [hh] at hhand
  | take hq => simp [hq] at hqueue
  | hangUp _ => exact ⟨hw, rfl⟩
  | restart hn => exact absurd hn hf

/-- Every step keeps a relay faithful. -/
theorem Faithful.step (hf : Faithful r) (h : Step n fresh r r') : Faithful r' := by
  rcases h.accepted_cases with ⟨ha, hs, ho⟩ | ⟨a, ho, ha, hs⟩ | ⟨-, hc, ha, hs⟩ | ⟨-, rfl⟩
  · refine ⟨fun h => ?_, ha ▸ hf.isPrefix.trans hs⟩
    rw [ha, (ho h).2, hf.open_eq (ho h).1]
  · have heq : r'.accepted = r'.sent := by rw [ha, hs, hf.open_eq ho]
    exact ⟨fun _ => heq, heq ▸ List.prefix_rfl⟩
  · exact ⟨fun h => absurd h hc, hs ▸ ha.trans hf.isPrefix⟩
  · exact .new n

/-- Taken and queued contents are a prefix of the contents of the log. -/
theorem Faithful.flatMap_isPrefix {β : Type*} (hf : Faithful r) (f : α → List β) :
    r.taken.flatMap f ++ r.channel.queue.flatMap f <+: r.sent.flatMap f := by
  obtain ⟨rest, hrest⟩ := hf.isPrefix
  refine ⟨r.hand.toList.flatMap f ++ rest.flatMap f, ?_⟩
  simp only [← hrest, accepted, waiting, List.flatMap_append, List.append_assoc]

/-- Where the elements that the producer was given are, as long as the consumer is there. -/
structure Counted (n : Nat) (r : Relay α) : Prop where
  capacity : r.channel.capacity = n
  room : r.channel.queue.length ≤ n
  offered : r.channel.rxOpen = true → r.offered = r.accepted.length

theorem Counted.new (n : Nat) : Counted n (new n : Relay α) := ⟨rfl, Nat.zero_le _, fun _ => rfl⟩

/-- Every step keeps account of the elements. -/
theorem Counted.step (hc : Counted n r) (h : Step n fresh r r') : Counted n r' := by
  cases h with
  | quiet _ => exact ⟨hc.capacity, hc.room, hc.offered⟩
  | accept a _ hh =>
    refine ⟨hc.capacity, hc.room, fun hx => ?_⟩
    have ho := hc.offered hx
    simp only [accepted, waiting, hh, Option.toList_none, List.append_nil] at ho
    simp [accepted, waiting, ho, Nat.add_assoc]
  | ignore as _ => exact ⟨hc.capacity, hc.room, hc.offered⟩
  | push hh hp _ =>
    have hroom := (Channel.poll_eq_ready.mp hp).2
    rw [hc.capacity] at hroom
    refine ⟨hc.capacity, ?_, fun hx => ?_⟩
    · simp only [Channel.queue_push, List.length_append, List.length_singleton]
      exact hroom
    · have ho := hc.offered hx
      simpa [accepted, waiting, hh] using ho
  | lose hh hp =>
    refine ⟨hc.capacity, hc.room, fun hx => ?_⟩
    rw [Channel.poll_eq_closed.mp hp] at hx
    cases hx
  | take hq =>
    have hroom := hc.room
    rw [hq, List.length_cons] at hroom
    refine ⟨hc.capacity, ?_, fun hx => ?_⟩
    · simpa [hq] using Nat.le_of_succ_le hroom
    · have ho := hc.offered hx
      simpa [accepted, waiting, hq] using ho
  | hangUp _ => exact ⟨hc.capacity, hc.room, fun hx => by cases hx⟩
  | restart _ => exact .new n

/-- The producer is stuck exactly when the consumer is there and has fallen behind by more elements
than the channel has slots. -/
theorem Counted.stuck_iff (hc : Counted n r) :
    r.Stuck ↔ r.channel.rxOpen = true ∧ r.taken.length + n < r.offered := by
  have hroom := hc.room
  rw [Stuck, Channel.poll_eq_pending, hc.capacity]
  constructor
  · rintro ⟨hh, hx, hfull⟩
    obtain ⟨a, ha⟩ := Option.isSome_iff_exists.mp hh
    have ho := hc.offered hx
    simp only [accepted, waiting, ha, Option.toList_some, List.length_append,
      List.length_singleton] at ho
    exact ⟨hx, by omega⟩
  · rintro ⟨hx, hlt⟩
    have ho := hc.offered hx
    simp only [accepted, waiting, List.length_append] at ho
    cases hh : r.hand with
    | none =>
      simp only [hh, Option.toList_none, List.length_nil] at ho
      omega
    | some a =>
      simp only [hh, Option.toList_some, List.length_singleton] at ho
      exact ⟨rfl, hx, by omega⟩

end Relay

end Async
