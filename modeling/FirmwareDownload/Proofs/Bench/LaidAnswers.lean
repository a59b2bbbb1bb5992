import FirmwareDownload.Bench.Trial

/-! The answers laid out on a mock link. Laying one out and reading can both hand an answer to a
read, and reads are dropped in between; yet no answer is lost or handed over twice. What carries
this is that a read is parked only while no answer is laid out. -/

namespace FirmwareDownload

/-- The answers that the control lays out, oldest first. -/
def MockControl.laidOut : MockControl → List Bytes
  | queue answer => [answer]
  | queueStatus status payload => (Frame.encode ⟨status, payload, false⟩).toOption.toList
  | queueStatuses status count => List.replicate count (Frame.wrap [status] false)
  | clearWrites => []
  | writeBehavior _ => []

/-- What can be done to a mock link. -/
inductive MockMove
  | control (c : MockControl)
  | write (frame : Bytes) (ticket : Ticket)
  | read (ticket : Ticket)
  | abortRead
  | setMode (mode : DeviceMode)
  deriving DecidableEq, Repr

def MockMove.laidOut : MockMove → List Bytes
  | control c => c.laidOut
  | _ => []

/-- The answer that a signal hands to a read. -/
def Signal.answer? : Signal → Option Bytes
  | received _ (.ok answer) => some answer
  | _ => none

namespace MockLink

def move (m : MockLink) : MockMove → Answer LinkError MockLink
  | .control c =>
    let (signals, m) := Controls.act m c
    ⟨.ok (), signals, m⟩
  | .write frame ticket => m.write frame ticket
  | .read ticket => m.read ticket
  | .abortRead => ⟨.ok (), [], m.abortRead⟩
  | .setMode mode => ⟨.ok (), [], m.setMode mode⟩

def play (m : MockLink) (moves : List MockMove) : MockLink :=
  moves.foldl (fun m a => (m.move a).world) m

/-- The signals posted by the moves, oldest first. -/
def posted (m : MockLink) : List MockMove → List Signal
  | [] => []
  | a :: moves => (m.move a).signals ++ (m.move a).world.posted moves

/-! ## One move -/

/-- All that a move can do to the answers laid out and to the parked read: the signals it posts, the
read parked behind it and the answers left. -/
inductive Deals (m : MockLink) (a : MockMove) : List Signal → Option Ticket → List Bytes → Prop
  /-- No read gets anything. -/
  | keeps {signals : List Signal} : a.laidOut = [] →
    (∀ ticket result, Signal.received ticket result ∉ signals) →
    Deals m a signals m.parked m.answers
  /-- What is laid out stays, as no read waits for it. -/
  | lays : m.parked = none → Deals m a [] none (m.answers ++ a.laidOut)
  /-- Something is laid out, and the parked read gets the oldest answer. -/
  | answers {ticket : Ticket} {answer : Bytes} {rest : List Bytes} : m.parked = some ticket →
    m.answers ++ a.laidOut = answer :: rest → Deals m a [.received ticket (.ok answer)] none rest
  | takes {ticket : Ticket} {answer : Bytes} {rest : List Bytes} : a = .read ticket →
    m.parked = none → m.answers = answer :: rest →
    Deals m a [.received ticket (.ok answer)] none rest
  | parks {ticket : Ticket} : a = .read ticket → m.parked = none → m.answers = [] →
    Deals m a [] (some ticket) []
  | drops : a = .abortRead → Deals m a [] none m.answers

variable {m : MockLink} {a : MockMove}

theorem deals_of_queueAnswer (m : MockLink) {answer : Bytes} {more : List Bytes}
    (h : a.laidOut = answer :: more) :
    m.Deals a (m.queueAnswer answer).1 (m.queueAnswer answer).2.parked
      ((m.queueAnswer answer).2.answers ++ more) := by
  have hl : m.answers ++ a.laidOut = m.answers ++ [answer] ++ more := by
    rw [h, List.append_assoc, List.singleton_append]
  cases hp : m.parked with
  | none =>
    have hq : m.queueAnswer answer = ([], { m with answers := m.answers ++ [answer] }) := by
      rw [queueAnswer, hp]
    rw [hq]
    dsimp only
    rw [hp, ← hl]
    exact .lays hp
  | some ticket =>
    obtain ⟨first, rest, ha⟩ := List.exists_cons_of_ne_nil (List.concat_ne_nil answer m.answers)
    have hq : m.queueAnswer answer =
        ([.received ticket (.ok first)], { m with answers := rest, parked := none }) := by
      rw [queueAnswer, hp, ha]
    rw [hq]
    exact .answers hp (by rw [hl, ha, List.cons_append])

theorem deals_control (m : MockLink) (c : MockControl) :
    m.Deals (.control c) (Controls.act m c).1 (Controls.act m c).2.parked
      (Controls.act m c).2.answers := by
  cases c with
  | queue answer =>
    have hl : (MockMove.control (.queue answer)).laidOut = [answer] := rfl
    have hd := m.deals_of_queueAnswer hl
    rwa [List.append_nil] at hd
  | queueStatus status payload =>
    cases he : Frame.encode ⟨status, payload, false⟩ with
    | ok raw =>
      have hl : (MockMove.control (.queueStatus status payload)).laidOut = [raw] := by
        rw [MockMove.laidOut, MockControl.laidOut, he]
        rfl
      have hq : Controls.act m (MockControl.queueStatus status payload) = m.queueAnswer raw := by
        simp only [Controls.act, queueStatus, he]
      have hd := m.deals_of_queueAnswer hl
      rwa [List.append_nil, ← hq] at hd
    | error err =>
      have hl : (MockMove.control (.queueStatus status payload)).laidOut = [] := by
        rw [MockMove.laidOut, MockControl.laidOut, he]
        rfl
      have hq : Controls.act m (MockControl.queueStatus status payload) = ([], m) := by
        simp only [Controls.act, queueStatus, he]
      rw [hq]
      exact .keeps hl nofun
  | queueStatuses status count =>
    cases count with
    | zero => exact .keeps rfl nofun
    | succ count => exact m.deals_of_queueAnswer List.replicate_succ
  | clearWrites => exact .keeps rfl nofun
  | writeBehavior behavior => exact .keeps rfl nofun

theorem deals_write (m : MockLink) (frame : Bytes) (ticket : Ticket) :
    m.Deals (.write frame ticket) (m.write frame ticket).signals
      (m.write frame ticket).world.parked (m.write frame ticket).world.answers := by
  rw [write]
  split
  · exact .keeps rfl nofun
  · exact .keeps rfl fun _ _ h => nomatch List.mem_singleton.1 h
  · exact .keeps rfl fun _ _ h => nomatch List.mem_singleton.1 h

theorem read_of_parked {waiting : Ticket} (hp : m.parked = some waiting) (ticket : Ticket) :
    m.read ticket = ⟨.error .readPending, [], m⟩ := by
  rw [read, hp]

theorem read_of_nil (hp : m.parked = none) (ha : m.answers = []) (ticket : Ticket) :
    m.read ticket = ⟨.ok (), [], { m with parked := some ticket }⟩ := by
  rw [read, hp, ha]

theorem read_of_cons {answer : Bytes} {rest : List Bytes} (hp : m.parked = none)
    (ha : m.answers = answer :: rest) (ticket : Ticket) :
    m.read ticket = ⟨.ok (), [.received ticket (.ok answer)], { m with answers := rest }⟩ := by
  rw [read, hp, ha]

theorem deals_read (m : MockLink) (ticket : Ticket) :
    m.Deals (.read ticket) (m.read ticket).signals (m.read ticket).world.parked
      (m.read ticket).world.answers := by
  cases hp : m.parked with
  | some waiting =>
    rw [read_of_parked hp]
    exact .keeps rfl nofun
  | none =>
    cases ha : m.answers with
    | nil =>
      rw [read_of_nil hp ha]
      dsimp only
      rw [ha]
      exact .parks rfl hp ha
    | cons answer rest =>
      rw [read_of_cons hp ha]
      dsimp only
      rw [hp]
      exact .takes rfl hp ha

theorem move_deals (m : MockLink) (a : MockMove) :
    m.Deals a (m.move a).signals (m.move a).world.parked (m.move a).world.answers := by
  cases a with
  | control c => exact m.deals_control c
  | write frame ticket => exact m.deals_write frame ticket
  | read ticket => exact m.deals_read ticket
  | abortRead => exact .drops rfl
  | setMode mode => exact .keeps rfl nofun

/-! ## Many moves -/

/-- A parked read and an answer laid out exclude each other. -/
def Exclusive (m : MockLink) : Prop := m.parked = none ∨ m.answers = []

def handedOver (signals : List Signal) : List Bytes := signals.filterMap Signal.answer?

section

variable {signals : List Signal} {parked : Option Ticket} {answers : List Bytes}

theorem Deals.exclusive (h : m.Deals a signals parked answers) (hs : m.Exclusive) :
    parked = none ∨ answers = [] := by
  cases h with
  | keeps => exact hs
  | lays => exact .inl rfl
  | answers => exact .inl rfl
  | takes => exact .inl rfl
  | parks => exact .inr rfl
  | drops => exact .inl rfl

theorem Deals.handedOver_append (h : m.Deals a signals parked answers) :
    handedOver signals ++ answers = m.answers ++ a.laidOut := by
  cases h with
  | keeps hl hn =>
    have hs : handedOver signals = [] := by
      refine List.filterMap_eq_nil_iff.2 fun s hs => ?_
      cases s with
      | received ticket result => exact absurd hs (hn ticket result)
      | _ => rfl
    rw [hs, hl, List.nil_append, List.append_nil]
  | lays => rfl
  | answers _ he => exact he.symm
  | takes ha _ he =>
    rw [ha, he]
    exact (List.append_nil _).symm
  | parks ha _ he =>
    rw [ha, he]
    rfl
  | drops ha =>
    rw [ha]
    exact (List.append_nil _).symm

/-- An answer goes to the parked read or to the one that is just asked for. -/
theorem Deals.received (h : m.Deals a signals parked answers) {ticket : Ticket}
    {result : Except LinkError Bytes} (hs : .received ticket result ∈ signals) :
    m.parked = some ticket ∨ a = .read ticket := by
  cases h with
  | keeps _ hn => exact absurd hs (hn ticket result)
  | answers hp => cases List.mem_singleton.1 hs; exact .inl hp
  | takes ha => cases List.mem_singleton.1 hs; exact .inr ha
  | lays | parks | drops => cases hs

theorem Deals.parked_cases (h : m.Deals a signals parked answers) {ticket : Ticket}
    (hp : parked = some ticket) : m.parked = some ticket ∨ a = .read ticket := by
  cases h with
  | keeps => exact .inl hp
  | parks ha => cases hp; exact .inr ha
  | lays | answers | takes | drops => cases hp

end

theorem Exclusive.play (h : m.Exclusive) (moves : List MockMove) : (m.play moves).Exclusive := by
  induction moves generalizing m with
  | nil => exact h
  | cons a moves ih => exact ih ((m.move_deals a).exclusive h)

theorem handedOver_posted (m : MockLink) (moves : List MockMove) :
    handedOver (m.posted moves) ++ (m.play moves).answers =
      m.answers ++ moves.flatMap MockMove.laidOut := by
  induction moves generalizing m with
  | nil => exact (List.append_nil _).symm
  | cons a moves ih =>
    have hd := (m.move_deals a).handedOver_append
    -- What the first move leaves stands in front of all that is laid out behind it.
    calc
      handedOver (m.posted (a :: moves)) ++ (m.play (a :: moves)).answers
        = handedOver (m.move a).signals ++
            (handedOver ((m.move a).world.posted moves) ++
              ((m.move a).world.play moves).answers) := by
          rw [posted, handedOver, List.filterMap_append, List.append_assoc]
          rfl
      _ = handedOver (m.move a).signals ++ (m.move a).world.answers ++
            moves.flatMap MockMove.laidOut := by
          rw [ih, List.append_assoc]
      _ = m.answers ++ (a :: moves).flatMap MockMove.laidOut := by
          rw [hd, List.append_assoc, List.flatMap_cons]

/-- Only a read that is parked or asked for later gets an answer. -/
theorem received_of_mem_posted {moves : List MockMove} {ticket : Ticket}
    {result : Except LinkError Bytes} (h : .received ticket result ∈ m.posted moves) :
    m.parked = some ticket ∨ .read ticket ∈ moves := by
  induction moves generalizing m with
  | nil => cases h
  | cons a moves ih =>
    have hd := m.move_deals a
    have hcons : m.parked = some ticket ∨ a = .read ticket →
        m.parked = some ticket ∨ .read ticket ∈ a :: moves :=
      Or.imp_right fun ha => ha ▸ List.mem_cons_self
    rcases List.mem_append.1 h with h | h
    · exact hcons (hd.received h)
    · rcases ih h with hp | hr
      · exact hcons (hd.parked_cases hp)
      · exact .inr (List.mem_cons_of_mem a hr)

/-- Whatever is done to a mock link, the answers handed over are those laid out, in order, but for
those still there. While a read is parked there are none, another read is refused and changes
nothing, the next answer goes to the parked read, and none ever does once it is aborted. Otherwise a
read is taken, and it gets the oldest answer at once or is parked if there is none. -/
theorem answers_handed_in_order (moves : List MockMove) :
    let m := ({} : MockLink).play moves
    moves.flatMap MockMove.laidOut = handedOver (({} : MockLink).posted moves) ++ m.answers ∧
    m.abortRead.parked = none ∧ m.abortRead.answers = m.answers ∧
    match m.parked with
    | some waiting =>
      m.answers = [] ∧ (∀ ticket, m.read ticket = ⟨.error .readPending, [], m⟩) ∧
      (∀ answer, m.queueAnswer answer =
        ([.received waiting (.ok answer)], { m with parked := none })) ∧
      ∀ later, .read waiting ∉ later → ∀ result, .received waiting result ∉ m.abortRead.posted later
    | none =>
      ∀ ticket, (m.read ticket).outcome = .ok () ∧
        (m.read ticket).signals = (m.answers.take 1).map (fun a => .received ticket (.ok a)) ∧
        (m.read ticket).world.answers = m.answers.drop 1 ∧
        (m.read ticket).world.parked = if m.answers = [] then some ticket else none := by
  have hs : (({} : MockLink).play moves).Exclusive := Exclusive.play (.inl rfl) moves
  have hh := handedOver_posted {} moves
  dsimp only
  generalize ({} : MockLink).play moves = m at hs hh
  refine ⟨hh.symm, rfl, rfl, ?_⟩
  cases hp : m.parked with
  | some waiting =>
    have ha : m.answers = [] := hs.resolve_left (by rw [hp]; exact nofun)
    refine ⟨ha, fun ticket => ?_, fun answer => ?_, fun later hn result hr => ?_⟩
    · exact read_of_parked hp ticket
    · rw [queueAnswer, hp, ha]
      rfl
    · exact (received_of_mem_posted hr).elim nofun hn
  | none =>
    intro ticket
    cases ha : m.answers with
    | nil =>
      rw [read_of_nil hp ha]
      exact ⟨rfl, rfl, ha, rfl⟩
    | cons answer rest =>
      rw [read_of_cons hp ha]
      exact ⟨rfl, rfl, rfl, hp⟩

/-- A read is answered, one is aborted, one takes the answer laid out behind it, one is parked, and
one is refused. -/
def abortedMoves : List MockMove :=
  [.control (.queue [0x01]), .read 1, .read 2, .abortRead, .control (.queue [0x02]), .read 3,
    .read 4, .read 5]

/-- The parked read is aborted, and the answer laid out next goes to the read behind it. -/
def laterMoves : List MockMove := [.control (.queue [0x03]), .read 6]

theorem answers_handed_in_order_past_abort :
    let m := ({} : MockLink).play abortedMoves
    m.parked = some 4 ∧ .read 4 ∉ laterMoves ∧
    handedOver (({} : MockLink).posted abortedMoves) = [[0x01], [0x02]] ∧
    m.read 6 = ⟨.error .readPending, [], m⟩ ∧
    ∀ result, .received 4 result ∉ m.abortRead.posted laterMoves := by
  have hp : (({} : MockLink).play abortedMoves).parked = some 4 := rfl
  have hn : .read 4 ∉ laterMoves := by decide
  obtain ⟨hl, -, -, hm⟩ := answers_handed_in_order abortedMoves
  rw [hp] at hm
  obtain ⟨ha, hr, -, hd⟩ := hm
  rw [ha, List.append_nil] at hl
  exact ⟨hp, hn, hl.symm, hr 6, hd laterMoves hn⟩

end MockLink

end FirmwareDownload
