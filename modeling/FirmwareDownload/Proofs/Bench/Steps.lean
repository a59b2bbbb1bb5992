import FirmwareDownload.Proofs.Bench.Conversation

/-! What a start and what a signal do to an engine on a calm bench, whatever else waits in its
queue: which session they leave, what goes over the link, and what the link brings. -/

namespace FirmwareDownload

/-- The notice opens or closes a command, carries a frame, or tells that no answer came. -/
def Notice.isTraffic : Notice → Bool
  | .started _ => true
  | .sent _ => true
  | .received _ => true
  | .timeout _ => true
  | .finished _ _ => true
  | _ => false

def traffic (ns : List Notice) : List Notice := ns.filter Notice.isTraffic

@[simp] theorem traffic_nil : traffic [] = [] := rfl

@[simp] theorem traffic_cons (n : Notice) (ns : List Notice) :
    traffic (n :: ns) = if n.isTraffic then n :: traffic ns else traffic ns :=
  List.filter_cons

@[simp] theorem traffic_append (ns ns' : List Notice) :
    traffic (ns ++ ns') = traffic ns ++ traffic ns' :=
  List.filter_append _ _

@[simp] theorem traffic_reverse (ns : List Notice) : traffic ns.reverse = (traffic ns).reverse :=
  List.filter_reverse ..

namespace Session

variable (s : Session)

@[simp] theorem traffic_moveNotices (p : Phase) : traffic (s.moveNotices p) = [] := by
  unfold moveNotices
  split <;> rfl

@[simp] theorem traffic_haltNotices : traffic s.haltNotices = [] := by
  unfold haltNotices
  cases s.timer.id with
  | none => rfl
  | some id => cases s.timer.running <;> rfl

@[simp] theorem traffic_releaseNotices : traffic s.releaseNotices = [] := by
  unfold releaseNotices timerReleaseNotices
  cases s.timer.id with
  | none => cases s.restoreNormalMode <;> rfl
  | some id => cases s.restoreNormalMode <;> cases s.timer.running <;> rfl

@[simp] theorem traffic_answerNotices (raw : Bytes) :
    traffic (s.answerNotices raw) = [.received raw] := by
  have hs : traffic (s.answering.statusNotices raw) = [] := by
    rcases s.answering.statusNotices_cases raw with hs | ⟨status, hs⟩ <;> rw [hs] <;> rfl
  have hg : traffic (s.answering.handleAnswer raw).2.progressNotices = [] := by
    unfold progressNotices
    split <;> rfl
  simp [answerNotices, hs, hg, Notice.isTraffic]

theorem traffic_closing (ns : List Notice) (command : Command) (err : Option DownloadError) :
    traffic (.finished command err :: (s.moveNotices .init ++ s.releaseNotices ++ ns)).reverse =
      traffic ns.reverse ++ [.finished command err] := by
  simp [Notice.isTraffic]

/-- No session is under way, and no mode is to be restored behind the next one. -/
structure Blank (s : Session) : Prop where
  phase : s.phase = .init
  timer : s.timer.id = none
  fresh : s.resendLastFrame = false
  mode : s.restoreNormalMode = false

/-- The session of a command as it builds its first frame. -/
def setOut (s : Session) (command : Command) (request : Request) (userData : Option Bytes)
    (capacity : Nat) (id : TimerId) : Session :=
  { (s.armed command request userData capacity).timed id with phase := .send }

/-- What a session does next. -/
inductive Next
  | ends (s : Session) (result : Except DownloadError Unit)
  | sends (s : Session)
  | holds (s : Session)

/-- What a session makes of its answer, under this limit on busy answers in a row. -/
def next (s : Session) (limit : Option UInt32) (raw : Bytes) : Next :=
  match s.answering.handleAnswer raw with
  | (.done, s) => .ends s (.ok ())
  | (.failed err, s) => .ends s (.error err)
  | (.proceed, s) =>
    match { s with phase := .send }.compose with
    | (.ok (), s) => .sends s
    | (.error err, s) => .ends s (.error err)
  | (.resend, s) =>
    match limit.filter (fun limit => limit < s.resendCount + 1) with
    | some limit => .ends s.countBusy (.error (.failed (.resendLimit limit)))
    | none => .holds s

variable {s} {s' s₁ : Session} {limit : Option UInt32} {raw : Bytes} {err : DownloadError}
  {result : Except DownloadError Unit}

theorem next_of_done (h : s.answering.handleAnswer raw = (.done, s')) :
    s.next limit raw = .ends s' (.ok ()) := by
  rw [next, h]

theorem next_of_failed (h : s.answering.handleAnswer raw = (.failed err, s')) :
    s.next limit raw = .ends s' (.error err) := by
  rw [next, h]

theorem next_of_proceed (h : s.answering.handleAnswer raw = (.proceed, s₁))
    (hc : { s₁ with phase := .send }.compose = (.ok (), s')) : s.next limit raw = .sends s' := by
  rw [next, h]
  dsimp only
  rw [hc]

theorem next_of_resend (h : s.answering.handleAnswer raw = (.resend, s'))
    (hl : limit.filter (fun limit => limit < s'.resendCount + 1) = none) :
    s.next limit raw = .holds s' := by
  rw [next, h]
  dsimp only
  rw [hl]

theorem next_ends (h : s.next limit raw = .ends s' result) :
    s.answering.handleAnswer raw = (.done, s') ∧ result = .ok () ∨
    (∃ err, s.answering.handleAnswer raw = (.failed err, s') ∧ result = .error err) ∨
    (∃ s₁ err, s.answering.handleAnswer raw = (.proceed, s₁) ∧
      { s₁ with phase := .send }.compose = (.error err, s') ∧ result = .error err) ∨
    ∃ s₁ limit', s.answering.handleAnswer raw = (.resend, s₁) ∧ s' = s₁.countBusy ∧
      limit.filter (fun limit => limit < s₁.resendCount + 1) = some limit' ∧
      result = .error (.failed (.resendLimit limit')) := by
  unfold next at h
  split at h
  · rename_i ha
    cases h
    exact .inl ⟨ha, rfl⟩
  · rename_i err _ ha
    cases h
    exact .inr (.inl ⟨err, ha, rfl⟩)
  · rename_i s₁ ha
    split at h <;> cases h
    exact .inr (.inr (.inl ⟨s₁, _, ha, ‹_›, rfl⟩))
  · rename_i s₁ ha
    split at h <;> cases h
    exact .inr (.inr (.inr ⟨s₁, _, ha, rfl, ‹_›, rfl⟩))

theorem next_sends (h : s.next limit raw = .sends s') : ∃ s₁,
    s.answering.handleAnswer raw = (.proceed, s₁) ∧
      { s₁ with phase := .send }.compose = (.ok (), s') := by
  unfold next at h
  split at h
  · cases h
  · cases h
  · rename_i s₁ ha
    split at h <;> cases h
    exact ⟨s₁, ha, ‹_›⟩
  · split at h <;> cases h

theorem next_holds (h : s.next limit raw = .holds s') :
    s.answering.handleAnswer raw = (.resend, s') ∧
      limit.filter (fun limit => limit < s'.resendCount + 1) = none := by
  unfold next at h
  split at h
  · cases h
  · cases h
  · split at h <;> cases h
  · rename_i ha
    split at h <;> cases h
    exact ⟨ha, ‹_›⟩

end Session

namespace Engine

variable {D : Type} [Link D] {e e₁ e' : Engine (Bench D)} {s s' : Session} {ns : List Notice}
  {queue : List Signal} {d d' : D} {command : Command} {id : TimerId} {raw : Bytes}
  {result : Except DownloadError Unit} {heard : List Notice}

/-- A session goes on: it is `s` now, and the link brought these signals. -/
structure Attains (e : Engine (Bench D)) (s : Session) (heard : List Notice)
    (signals : List Signal) (d : D) (e' : Engine (Bench D)) : Prop where
  session : e'.session = s
  traffic : traffic e'.notices = traffic e.notices ++ heard
  delivered : e'.delivered = e.delivered
  lastTicket : e.lastTicket ≤ e'.lastTicket
  queue_eq : e'.queue = e.queue ++ signals
  calm : e'.world.Calm d
  timer : ∀ id, s.timer.id = some id → e'.world.HasTimer id
  config : e'.config = e.config

/-- No session is left, and the link brought nothing more. -/
structure Leaves (e : Engine (Bench D)) (heard : List Notice) (done : List Completion) (d : D)
    (e' : Engine (Bench D)) : Prop where
  idle : e'.session.Idle
  traffic : FirmwareDownload.traffic e'.notices = FirmwareDownload.traffic e.notices ++ heard
  delivered : e'.delivered = done ++ e.delivered
  lastTicket : e.lastTicket ≤ e'.lastTicket
  queue_eq : e'.queue = e.queue
  calm : e'.world.Calm d
  config : e'.config = e.config

/-! ## Operations -/

omit [Link D] in
theorem reaches_refl (hc : e.world.Calm d)
    (ht : ∀ id, e.session.timer.id = some id → e.world.HasTimer id) :
    e.Reaches e.session e.queue d e :=
  ⟨rfl, rfl, hc, ht, rfl, rfl, rfl, rfl⟩

omit [Link D] in
theorem traffic_notices (h : e'.journal = ns ++ e.journal) :
    traffic e'.notices = traffic e.notices ++ traffic ns.reverse := by
  rw [notices, notices, h, List.reverse_append, traffic_append]

omit [Link D] in
theorem Reaches.attains {signals : List Signal} (h : e.Reaches s (e.queue ++ signals) d e')
    (hp : e.Passes s' ns e') (hh : traffic ns.reverse = heard) :
    e.Attains s heard signals d e' :=
  ⟨h.session, hh ▸ traffic_notices hp.journal, hp.delivered, hp.lastTicket, h.queue_eq, h.calm,
    h.timer, hp.config⟩

theorem Reaches.writesFrame (h : e.Reaches s queue d e₁) (hs : s.resendLastFrame = false)
    (hw : ∀ t, Link.write d s.frame.bytes t = ⟨.ok (), [.written t (.ok ())], d'⟩) :
    ∃ t e₂, e₁.writeFrame = (.ok (), e₂) ∧
      e.Reaches (s.sending t) (queue ++ [.written t (.ok ())]) d' e₂ := by
  obtain ⟨t, e₂, he, h₂⟩ := h.writeFrame hw
  refine ⟨t, e₂, he, ?_⟩
  rw [Session.sending, ← hs]
  exact h₂

theorem Reaches.sendsNext (h : e.Reaches s queue d e₁) (hs : s.resendLastFrame = false)
    (hc : s.compose = (.ok (), s'))
    (hw : ∀ t, Link.write d s'.frame.bytes t = ⟨.ok (), [.written t (.ok ())], d'⟩) :
    ∃ t e₂, e₁.sendNext = (.ok (), e₂) ∧
      e.Reaches (s'.sending t) (queue ++ [.written t (.ok ())]) d' e₂ := by
  obtain ⟨hn, ht, -⟩ := compose_kept hc
  have h₁ := h.update (fun _ => s') fun _ hid => by rw [← ht]; exact hid
  unfold Engine.sendNext
  rw [h.session, hs, hc]
  exact h₁.writesFrame (hn.trans hs) hw

/-- The bench is calm behind the end of a session, and no signal was taken or brought. -/
theorem Reaches.leaves (h : e.Reaches s e.queue d e₁) (hr : s.restoreNormalMode = false)
    (hp : e.Concludes s ns command result (e₁.conclude result)) (hc : s.command = some command)
    (hh : traffic ns.reverse = heard) : e.Leaves (heard ++ [.finished command (errorOf result)])
      [⟨command, result, s.response.take s.responseLength⟩] (Link.abortRead d)
      (e₁.conclude result) := by
  have h₁ := h.release hr
  have h₂ := (h₁.update (fun s => s.handOver.2) fun _ hid => hid).enter .init
  have hq : (e₁.conclude result).queue = e.queue ∧
      (e₁.conclude result).world.Calm (Link.abortRead d) := by
    rw [conclude_eq (h.session ▸ hc)]
    unfold Engine.closing
    dsimp only
    split <;> exact ⟨h₂.queue_eq, h₂.calm⟩
  refine ⟨hp.session ▸ Session.idle_reset s, ?_, hp.delivered, hp.lastTicket, hq.1, hq.2, hp.config⟩
  rw [traffic_notices hp.journal, s.traffic_closing, hh]

omit [Link D] in
/-- A session that is still busy did not end. -/
theorem Turns.goes {W : Type} [Host W] {e e' : Engine W}
    {outcome : Option (Except DownloadError Unit)} (h : e.Turns s ns command outcome e')
    (hb : e'.session.busy = true) : outcome = none := by
  cases outcome with
  | none => rfl
  | some result =>
    have hs := h.session
    rw [hs] at hb
    cases hb

/-! ## The frame is out -/

theorem written_calm {w : Ticket} (hw : e.session.Waiting command id)
    (ha : e.session.Awaits (.written w (.ok ()))) (hc : e.world.Calm d)
    (ht : e.world.HasTimer id)
    (hr : ∀ r, Link.read d r = ⟨.ok (), [.received r (.ok raw)], d'⟩) :
    ∃ t r, e.lastTicket < r ∧ e.lastTicket < t ∧ r ≤ (e.handle (.written w (.ok ()))).lastTicket ∧
      e.Attains (e.session.frameOut.listening t r) [] [.received r (.ok raw)] d'
        (e.handle (.written w (.ok ()))) := by
  have hid : ∀ id', e.session.timer.id = some id' → e.world.HasTimer id' := by
    intro id' hid
    obtain rfl := Option.some.inj (hw.timer.symm.trans hid)
    exact ht
  have h₁ := (reaches_refl hc hid).update Session.frameOut fun _ hid => hid
  obtain ⟨t₁, e₂, he₂, h₂⟩ := h₁.setTimer hw.timer .response e.config.responseTimeout.toNat
  obtain ⟨r, e₃, he₃, h₃⟩ := (h₂.enter .timer).requestRead hr
  have hh : e.handle (.written w (.ok ())) = e₃ := by
    rw [handle_written ha.1 ha.2]
    unfold Engine.onWritten
    dsimp only
    rw [show (e.withSession e.session.frameOut).config.responseTimeout =
      e.config.responseTimeout from rfl, he₂]
    dsimp only
    rw [he₃]
    rfl
  obtain ⟨s, ns, outcome, hre, htu⟩ := handle_reacts hw ha
  rw [hh] at hre htu ⊢
  obtain rfl := htu.goes (h₃.session ▸ hw.busy)
  cases hre with
  | @listens _ t r' _ ht' hr' _ =>
    have hs := htu.session.symm.trans h₃.session
    obtain ⟨rfl, rfl⟩ : t = t₁ ∧ r' = r :=
      ⟨Option.some.inj (congrArg (·.timer.ticket) hs), Option.some.inj (congrArg (·.readTicket) hs)⟩
    exact ⟨t, r', hr'.1, ht'.1, hr'.2, h₃.attains htu rfl⟩

/-! ## The answer comes -/

theorem handle_answer_calm {r : Ticket} (ha : e.session.Awaits (.received r (.ok raw)))
    (h : e.Reaches e.session e.queue d e) :
    ∃ e₁, e.handle (.received r (.ok raw)) =
        e₁.follow (e.session.answering.handleAnswer raw).1 ∧
      e.Passes (e.session.answering.handleAnswer raw).2 (e.session.answerNotices raw) e₁ ∧
      e.Reaches (e.session.answering.handleAnswer raw).2 e.queue d e₁ := by
  have hp := ((((Passes.refl e).withSession { e.session with readTicket := none }).haltTimer.enter
    .response).note (.received raw)).noteStatus raw
  have hp₁ := (hp.withSession (e.session.answering.handleAnswer raw).2).noteProgress
  have hr := (((h.update (fun s => { s with readTicket := none }) fun _ hid =>
    hid).haltTimer.enter .response).note (.received raw)).noteStatus raw
  have hr₁ := (hr.update (fun _ => (e.session.answering.handleAnswer raw).2) fun id' hid => by
    obtain ⟨_, _, _, _, _, he⟩ := e.session.answering.handleAnswer_eq raw
    rw [he] at hid
    exact hid).noteProgress
  refine ⟨_, ?_, hp₁.congr rfl ?_, hr₁⟩
  · rw [handle_received ha.1 ha.2]
    unfold Engine.onReceived Engine.onAnswer
    dsimp only
    rw [hp.session]
    rfl
  · rw [List.append_nil]
    rfl

theorem received_ends {r : Ticket} (hw : e.session.Waiting command id)
    (ha : e.session.Awaits (.received r (.ok raw))) (hm : e.session.restoreNormalMode = false)
    (h : e.Reaches e.session e.queue d e)
    (hn : e.session.next e.config.resendLimit raw = .ends s result) :
    e.Leaves [.received raw, .finished command (errorOf result)]
      [⟨command, result, s.response.take s.responseLength⟩] (Link.abortRead d)
      (e.handle (.received r (.ok raw))) := by
  obtain ⟨e₁, he, hp, hr⟩ := handle_answer_calm ha h
  have hu := hw.toUnderway.handleAnswer raw
  have hk : (e.session.answering.handleAnswer raw).2.restoreNormalMode = false := by
    obtain ⟨_, _, _, _, _, hs⟩ := e.session.answering.handleAnswer_eq raw
    rw [hs]
    exact hm
  have ht : traffic (e.session.answerNotices raw).reverse = [.received raw] := by simp
  rw [he]
  rcases Session.next_ends hn with ⟨hv, rfl⟩ | ⟨err, hv, rfl⟩ | ⟨s₁, err, hv, hcomp, rfl⟩ |
    ⟨s₁, limit, hv, rfl, hl, rfl⟩ <;> rw [hv] at hp hr hu hk ⊢
  · exact hr.leaves hk (hp.follow_done hu) hu.command ht
  · exact hr.leaves hk (hp.follow_failed hu err) hu.command ht
  · have hu₂ := hu.compose hcomp
    obtain ⟨-, htm, hk₂⟩ := compose_kept hcomp
    have hr₁ := hr.enter .send
    have hr₂ := hr₁.update (fun _ => s) fun _ hid => htm ▸ hid
    have hnext := sendNext_refused (e := e₁.enter .send) (by rw [hr₁.session]; exact hu.fresh)
      (hr₁.session ▸ hcomp)
    have hc := hp.follow_proceed_refused hu hu₂ hcomp
    have hf : e₁.follow .proceed = ((e₁.enter .send).withSession s).conclude (.error err) := by
      unfold Engine.follow
      rw [hnext]
      rfl
    have hh : traffic (s₁.moveNotices .send ++ e.session.answerNotices raw).reverse =
        [.received raw] := by
      simp
    rw [hf] at hc ⊢
    exact hr₂.leaves (hk₂.trans hk) hc hu₂.command hh
  · have hr₁ := hr.update Session.countBusy fun _ hid => hid
    obtain rfl := hp.session
    have hf : e₁.follow .resend = (e₁.withSession e₁.session.countBusy).conclude
        (.error (.failed (.resendLimit limit))) := by
      rw [Engine.follow, awaitMemory_eq, hp.config, hl]
    have hc := (hp.update Session.countBusy).conclude hu.command hu.awaited
      (.error (.failed (.resendLimit limit)))
    rw [hf]
    exact hr₁.leaves hk hc hu.command ht

theorem received_sends {r : Ticket} (hw : e.session.Waiting command id)
    (ha : e.session.Awaits (.received r (.ok raw))) (h : e.Reaches e.session e.queue d e)
    (hn : e.session.next e.config.resendLimit raw = .sends s)
    (hwr : ∀ t, Link.write d s.frame.bytes t = ⟨.ok (), [.written t (.ok ())], d'⟩) :
    ∃ t, e.Draws (e.handle (.received r (.ok raw))) t ∧
      e.Attains (s.sending t) [.received raw, .sent s.frame.bytes] [.written t (.ok ())] d'
        (e.handle (.received r (.ok raw))) := by
  obtain ⟨e₁, he, hp, hr⟩ := handle_answer_calm ha h
  have hu := hw.toUnderway.handleAnswer raw
  obtain ⟨s₁, hv, hcomp⟩ := Session.next_sends hn
  rw [hv] at hp hr hu
  rw [he, hv]
  have hu₂ := hu.compose hcomp
  obtain ⟨w, e₂, hs, hr₂⟩ := (hr.enter .send).sendsNext hu.fresh hcomp hwr
  have hf : e₁.follow .proceed = e₂ := by
    unfold Engine.follow
    rw [hs]
    rfl
  obtain ⟨t, hd, hg⟩ := hp.follow_proceed hu hu₂ hcomp
  rw [hf] at hd hg ⊢
  have hb : e₂.session.busy = true := hr₂.session ▸ hu₂.busy
  rcases hg with hp₂ | ⟨err, -, hc⟩
  · obtain rfl : t = w := Option.some.inj
      (congrArg Session.writeTicket (hp₂.session.symm.trans hr₂.session))
    exact ⟨t, hd, hr₂.attains hp₂ (by simp [Notice.isTraffic])⟩
  · rw [hc.session] at hb
    cases hb

theorem received_holds {r : Ticket} (hw : e.session.Waiting command id)
    (ha : e.session.Awaits (.received r (.ok raw))) (h : e.Reaches e.session e.queue d e)
    (hn : e.session.next e.config.resendLimit raw = .holds s) :
    ∃ t, e.Draws (e.handle (.received r (.ok raw))) t ∧
      e.Attains (s.holding t) [.received raw] [] d (e.handle (.received r (.ok raw))) := by
  obtain ⟨e₁, he, hp, hr⟩ := handle_answer_calm ha h
  have hu := hw.toUnderway.handleAnswer raw
  obtain ⟨hv, hl⟩ := Session.next_holds hn
  rw [hv] at hp hr hu
  rw [he, hv]
  have hr₁ := (hr.update Session.countBusy fun _ hid => hid).note (.resend (s.resendCount + 1))
  obtain ⟨w, e₂, hs, hr₂⟩ := hr₁.setTimer hu.timer .resendWait e.config.resendWait.toNat
  have hr₃ : e.Reaches (s.holding w) e.queue d (e₂.enter .timer) := hr₂.enter .timer
  have hf : e₁.follow .resend = e₂.enter .timer := by
    rw [Engine.follow, awaitMemory_eq, hp.config, hp.session, hl]
    dsimp only
    rw [hp.session] at hs
    rw [hs]
  have hb : (e₂.enter .timer).session.busy = true := hr₃.session ▸ hu.busy
  have hg := hp.awaitMemory hu
  rw [← Engine.follow, hf] at hg
  rw [hf]
  rcases hg with ⟨limit, -, -, hc⟩ | ⟨-, ⟨err, -, hc⟩ | ⟨t, hd, hp₂⟩⟩
  · rw [hc.session] at hb
    cases hb
  · rw [hc.session] at hb
    cases hb
  · obtain rfl : t = w := Option.some.inj
      (congrArg (·.timer.ticket) (hp₂.session.symm.trans hr₃.session))
    have hq : e.Reaches (s.holding t) (e.queue ++ []) d (e₂.enter .timer) :=
      (List.append_nil e.queue).symm ▸ hr₃
    exact ⟨t, hd, hq.attains hp₂ (by simp [Notice.isTraffic])⟩

/-! ## The wait for the memory is over -/

theorem expired_calm {w : Ticket} (hw : e.session.Waiting command id)
    (ha : e.session.Awaits (.expired w)) (hp : e.session.timer.purpose = .resendWait)
    (h : e.Reaches e.session e.queue d e)
    (hwr : ∀ t, Link.write d e.session.frame.bytes t = ⟨.ok (), [.written t (.ok ())], d'⟩) :
    ∃ t, e.Draws (e.handle (.expired w)) t ∧
      e.Attains (e.session.lapsed.sending t) [.sent e.session.frame.bytes]
        [.written t (.ok ())] d' (e.handle (.expired w)) := by
  have hr₁ := ((h.update Session.lapsed fun _ hid => hid).enter .send).update
    (fun s => { s with resendLastFrame := true }) fun _ hid => hid
  have hr₂ := hr₁.update (fun s => { s with resendLastFrame := false }) fun _ hid => hid
  obtain ⟨t₁, e₂, hs, hr₃⟩ := hr₂.writesFrame rfl hwr
  have hr₄ : e.Reaches (e.session.lapsed.sending t₁) (e.queue ++ [.written t₁ (.ok ())]) d' e₂ :=
    hr₃
  have hh : e.handle (.expired w) = e₂ := by
    rw [handle_expired ha.1 ha.2, onExpired_eq, hp]
    unfold Engine.sendAgain Engine.sendNext
    dsimp only
    rw [if_pos (congrArg Session.resendLastFrame hr₁.session)]
    exact congrArg concludeOnError hs
  obtain ⟨s, ns, outcome, hre, htu⟩ := handle_reacts hw ha
  rw [hh] at hre htu ⊢
  obtain rfl := htu.goes (hr₄.session ▸ hw.busy)
  cases hre with
  | @resends _ t _ _ hd _ =>
    obtain rfl : t = t₁ := Option.some.inj
      (congrArg Session.writeTicket (htu.session.symm.trans hr₄.session))
    exact ⟨t, hd, hr₄.attains htu rfl⟩

/-! ## A command is started -/

theorem start_calm (command : Command) (request : Request) (userData : Option Bytes)
    (capacity : Nat) (hs : e.session.Blank) (hc : e.world.Calm d) : ∃ id,
      (∀ s, (e.session.setOut command request userData capacity id).compose = (.ok (), s) →
        ∀ d', (∀ t, Link.write d s.frame.bytes t = ⟨.ok (), [.written t (.ok ())], d'⟩) →
        ∃ t e', e.start command request userData capacity = (.ok (), e') ∧ e.Draws e' t ∧
          e.Attains (s.sending t) [.started command, .sent s.frame.bytes]
            [.written t (.ok ())] d' e') ∧
      (∀ err s, (e.session.setOut command request userData capacity id).compose =
          (.error err, s) →
        ∃ e', e.start command request userData capacity = (.error err, e') ∧
          e.Leaves [.started command, .finished command (some err)] [] (Link.abortRead d) e') := by
  have hid : ∀ id, e.session.timer.id = some id → e.world.HasTimer id :=
    fun id hid => nomatch hs.timer.symm.trans hid
  have hr₁ := ((reaches_refl hc hid).update
    (fun s => s.armed command request userData capacity) fun _ hid => hid).note (.started command)
  have hp₁ := ((Passes.refl e).update
    (fun s => s.armed command request userData capacity)).note (.started command)
  obtain ⟨id, e₂, he, hr₂⟩ := hr₁.createTimer
  have hp₂ : e.Passes ((e.session.armed command request userData capacity).timed id)
      [.timerCreated id, .started command] e₂ := by
    rcases hp₁.createTimer with ⟨err, _, he', -⟩ | ⟨id', _, he', hp₂⟩
    · cases he.symm.trans he'
    · obtain ⟨-, rfl⟩ := Prod.mk.inj (he.symm.trans he')
      obtain rfl : id' = id := Option.some.inj
        (congrArg (·.timer.id) (hp₂.session.symm.trans hr₂.session))
      exact hp₂
  have hp₃ := hp₂.enter .send
  rw [Session.moveNotices_of_phase
    (s := (e.session.armed command request userData capacity).timed id) hs.phase
    (by decide)] at hp₃
  have hr₃ := hr₂.enter .send
  refine ⟨id, fun s hcomp d' hwr => ?_, fun err s hcomp => ?_⟩
  · obtain ⟨hfresh, -, -⟩ := compose_kept hcomp
    obtain ⟨w, e₄, hsend, hr₄⟩ := hr₃.sendsNext hs.fresh hcomp hwr
    obtain ⟨r, t, e₄', hsend', -, hd, hp₄⟩ := hp₃.sendNext hs.fresh (hfresh.trans hs.fresh) hcomp
    obtain ⟨rfl, rfl⟩ := Prod.mk.inj (hsend.symm.trans hsend')
    obtain rfl : t = w := Option.some.inj
      (congrArg Session.writeTicket (hp₄.session.symm.trans hr₄.session))
    refine ⟨t, e₄, ?_, hp₃.draws hd, hr₄.attains hp₄ (by simp [Notice.isTraffic])⟩
    rw [start_eq]
    unfold Engine.launch
    rw [he]
    dsimp only
    rw [hsend]
  · obtain ⟨-, htm, hk⟩ := compose_kept hcomp
    have hsend := sendNext_refused (e := e₂.enter .send) (by rw [hr₃.session]; exact hs.fresh)
      ((congrArg Session.compose hr₃.session).trans hcomp)
    have hr₄ := ((hr₃.update (fun _ => s) fun _ hid => htm ▸ hid).release (hk.trans hs.mode)).update
      Session.reset nofun
    have hp₄ := ((hp₃.withSession s).release.update Session.reset).note
      (.finished command (some err))
    refine ⟨_, ?_, hp₄.session ▸ Session.idle_reset _, ?_, hp₄.delivered, hp₄.lastTicket,
      hr₄.queue_eq, hr₄.calm, hp₄.config⟩
    · rw [start_eq]
      unfold Engine.launch
      rw [he]
      dsimp only
      rw [hsend]
    · rw [traffic_notices hp₄.journal]
      simp [Notice.isTraffic]

end Engine

end FirmwareDownload
