import MangoStudio.Session.Answers

/-!
# The two ends agree on the frame limit

Two TypeScript sessions over a reliable first-in first-out transport.  Each side
has three numbers: the option, the limit of its port's decoder, and what it
announces in its hello.  A ceiling that is not below the protocol's default is
not announced, and the sender takes the default in its place.

* `announced_le` is the arithmetic of one side: what the peer reads out of the
  hello, silence included, is at most the port's decoder limit.
* `WithinLimit` is the invariant of one session.  The requests, events and
  results that it sent are within its send limit, it sent none before the
  peer's hello, and its own hello is the one of its configuration.
* `Link` puts two sessions together.  `Agrees` says that what a session knows
  of its peer is what the peer announced, and the law follows.
-/

namespace MangoStudio.Protocol.Ts

open List Option Session

variable {σ τ : Type}

/-! ## The announcement -/

/-- The ceiling that the peer of a session reads out of its hello. -/
def announced (config : Config) : Nat :=
  ((Session.buildHello config).limits.bind Limits.maxFrameBytes).getD defaultMaxFrameBytes

theorem bind_announced (limits : Limits) :
    (if limits = {} then none else some limits).bind Limits.maxFrameBytes =
      limits.maxFrameBytes := by
  split_ifs with hempty
  · rw [hempty]
    rfl
  · rfl

theorem announced_eq (config : Config) :
    announced config = min config.localMaxFrameBytes.bytes defaultMaxFrameBytes := by
  have hlimits : (buildHello config).limits.bind Limits.maxFrameBytes =
      if config.localMaxFrameBytes.bytes < defaultMaxFrameBytes then
        some config.localMaxFrameBytes.bytes
      else none := bind_announced _
  rw [announced, hlimits]
  split_ifs with hlow
  · rw [getD_some]
    omega
  · rw [getD_none]
    omega

theorem announced_le {options : SessionOptions} {portCeiling : Nat} {config : Config}
    (hconfig : configure options (some portCeiling) = .ok config) :
    announced config ≤ portCeiling := by
  have hlocal := localFrameCeiling_le (configure_ok hconfig).1
  rw [announced_eq]
  exact le_trans (Nat.min_le_left _ _) hlocal

/-! ## One session -/

/-- The frames whose size a session checks before it sends them. -/
def isChecked : Frame → Bool
  | .req _ => true
  | .evt _ => true
  | .res _ => true
  | _ => false

/-- Where a session is before the peer's hello: not ready, and with no request
of the peer that runs. -/
structure Unwelcomed (session : Session σ) : Prop where
  state : session.state ≠ .ready
  ready : ∀ remote, session.ready ≠ some (.ok remote)
  dispatches : ∀ dispatch ∈ session.dispatches, dispatch.settled = true

structure WithinLimit (config : Config) (session : Session σ) : Prop where
  handshaking : session.state = .handshaking → session.remote = none
  hello : ∀ sent ∈ session.sent, ∀ greeting, sent.frame = .hello greeting →
    greeting = Session.buildHello config
  unwelcomed : session.remote = none → Unwelcomed session
  unsent : session.remote = none → ∀ sent ∈ session.sent, isChecked sent.frame = false
  sized : ∀ sent ∈ session.sent, isChecked sent.frame = true →
    measureFrameBytes sent.frame ≤ session.sendLimit config

open WithinLimit

variable {port : Port σ} {config : Config} {session : Session σ}

theorem WithinLimit.congr {after : Session σ} (h : WithinLimit config session)
    (hstate : after.state = .handshaking → session.state = .handshaking)
    (hremote : after.remote = session.remote) (hsent : after.sent = session.sent)
    (hunwelcomed : Unwelcomed session → Unwelcomed after) : WithinLimit config after := by
  refine ⟨fun hafter => hremote.trans (h.handshaking (hstate hafter)), ?_, ?_, ?_, ?_⟩
  · rw [hsent]
    exact h.hello
  · rw [hremote]
    exact fun hnone => hunwelcomed (h.unwelcomed hnone)
  · rw [hremote, hsent]
    exact h.unsent
  · rw [hsent]
    intro sent hmem hchecked
    show measureFrameBytes sent.frame ≤ sendLimitBytes config.localMaxFrameBytes after.remote
    rw [hremote]
    exact h.sized sent hmem hchecked

theorem WithinLimit.fields {after : Session σ} (h : WithinLimit config session)
    (hremote : after.remote = session.remote) (hsent : after.sent = session.sent)
    (hstate : after.state = session.state) (hready : after.ready = session.ready)
    (hdispatches : after.dispatches = session.dispatches) : WithinLimit config after :=
  h.congr (fun hafter => hstate.symm.trans hafter) hremote hsent fun hnone =>
    ⟨hstate ▸ hnone.state, hready ▸ hnone.ready, hdispatches ▸ hnone.dispatches⟩

theorem Unwelcomed.settleReady (h : Unwelcomed session) (error : RemoteError) :
    Unwelcomed (session.settleReady (.error error)) := by
  refine ⟨h.state, ?_, h.dispatches⟩
  intro remote hready
  cases hbefore : session.ready <;> grind [settleReady, cases Unwelcomed]

section

variable {before after : List Dispatch}
  (hheaders : ∀ n : Nat, after[n]?.map Dispatch.header = before[n]?.map Dispatch.header)

include hheaders

theorem settled_of_headers (hsettled : ∀ dispatch ∈ before, dispatch.settled = true) :
    ∀ dispatch ∈ after, dispatch.settled = true := by
  intro dispatch hmem
  obtain ⟨n, hn⟩ := mem_iff_getElem?.mp hmem
  have hheader := hheaders n
  rw [hn, map_some] at hheader
  obtain ⟨earlier, hearlier, hsame⟩ := map_eq_some_iff.mp hheader.symm
  rw [← (Prod.mk.inj hsame).2]
  exact hsettled earlier (mem_of_getElem? hearlier)

theorem headers_settle {m : Nat} (n : Nat) :
    (after.modify m Dispatch.settle)[n]?.map Dispatch.header =
      (before.modify m Dispatch.settle)[n]?.map Dispatch.header := by
  grind [Dispatch.header, Dispatch.settle]

end

variable {n : Nat}

theorem settled_modify {dispatches : List Dispatch}
    (hsettled : ∀ dispatch ∈ dispatches, dispatch.settled = true) :
    ∀ dispatch ∈ dispatches.modify n Dispatch.settle, dispatch.settled = true := by
  intro dispatch hmem
  obtain ⟨m, hm⟩ := mem_iff_getElem?.mp hmem
  rw [getElem?_modify] at hm
  obtain ⟨earlier, hearlier, hsame⟩ := map_eq_some_iff.mp hm
  rw [← hsame]
  split_ifs
  · rfl
  · exact hsettled earlier (mem_of_getElem? hearlier)

theorem settled_deliver {dispatches : List Dispatch} {dispatch : Dispatch}
    (hsettled : ∀ dispatch ∈ dispatches, dispatch.settled = true) :
    ∀ later ∈ (dispatches ++ [dispatch]).modify dispatches.length Dispatch.settle,
      later.settled = true := by
  intro later hmem
  obtain ⟨m, hm⟩ := mem_iff_getElem?.mp hmem
  rw [getElem?_modify] at hm
  obtain ⟨earlier, hearlier, hsame⟩ := map_eq_some_iff.mp hm
  rw [← hsame]
  split_ifs with hlast
  · rfl
  · grind

theorem WithinLimit.teardown (h : WithinLimit config session) (closure : SessionClosure) :
    WithinLimit config (session.teardown closure) := by
  by_cases hclosed : session.state = .closed
  · rwa [teardown_of_closed hclosed]
  · rw [teardown_of_open hclosed]
    refine h.congr (fun hstate => absurd hstate (by simp)) rfl rfl fun hnone =>
      ⟨by simp, (hnone.settleReady _).ready, ?_⟩
    exact settled_of_headers (header_abortActive session) hnone.dispatches

/-- What a session may send: a checked frame within its limit once it knows its
peer, and no hello but its own. -/
structure MaySend (config : Config) (session : Session σ) (frame : Frame) : Prop where
  checked : isChecked frame = true →
    session.remote ≠ none ∧ measureFrameBytes frame ≤ session.sendLimit config
  hello : ∀ greeting, frame = .hello greeting → greeting = Session.buildHello config

variable {frame : Frame}

theorem MaySend.of_unchecked (hchecked : isChecked frame = false)
    (hhello : ∀ greeting, frame ≠ .hello greeting) : MaySend config session frame :=
  ⟨fun h => absurd h (by simp [hchecked]), fun greeting h => absurd h (hhello greeting)⟩

section

variable (h : WithinLimit config session) (hframe : MaySend config session frame) (origin : Origin)

include h hframe

theorem WithinLimit.afterSend : WithinLimit config (session.afterSend port origin frame) := by
  have hsent : ∀ sent ∈ (session.afterSend port origin frame).sent,
      sent ∈ session.sent ∨ sent.frame = frame := by
    grind [afterSend]
  refine ⟨h.handshaking, ?_, ?_, ?_, ?_⟩
  · grind [cases WithinLimit, cases MaySend]
  · intro hnone
    exact ⟨(h.unwelcomed hnone).state, (h.unwelcomed hnone).ready,
      (h.unwelcomed hnone).dispatches⟩
  · intro hnone sent hmem
    rcases hsent sent hmem with hold | hnew
    · exact h.unsent hnone sent hold
    · rw [hnew]
      cases hchecked : isChecked frame with
      | false => rfl
      | true => exact absurd hnone (hframe.checked hchecked).1
  · intro sent hmem hchecked
    rcases hsent sent hmem with hold | hnew
    · exact h.sized sent hold hchecked
    · rw [hnew] at hchecked ⊢
      exact (hframe.checked hchecked).2

theorem WithinLimit.send : WithinLimit config (session.send port origin frame).1 :=
  send_keeps (fun _ closure h => h.teardown closure) (h.afterSend hframe origin)

end

/-! ### The frames that are checked -/

theorem WithinLimit.emit (h : WithinLimit config session) (event : EventInput) :
    WithinLimit config (session.emit port config event).1 := by
  refine emit_keeps h (fun hstate hsize => ?_) fun sent seq h => h.fields rfl rfl rfl rfl rfl
  have hremote : session.remote ≠ none := fun hnone => (h.unwelcomed hnone).state hstate
  exact h.send ⟨fun _ => ⟨hremote, hsize⟩, fun greeting hframe => by simp at hframe⟩ _

theorem WithinLimit.respond (h : WithinLimit config (session.settleDispatch n))
    (hframe : MaySend config session frame) :
    WithinLimit config ((session.trySend port (.dispatch n) frame).settleDispatch n) := by
  refine @Session.trySend_keeps _ port session (.dispatch n) frame
    (fun after => WithinLimit config (after.settleDispatch n)) ?_ h ?_
  · intro between closure hbetween
    by_cases hclosed : between.state = .closed
    · rwa [teardown_of_closed hclosed]
    · rw [teardown_of_open hclosed]
      refine hbetween.congr (fun hstate => absurd hstate (by simp [settleDispatch])) rfl
        rfl fun hnone => ⟨by simp [settleDispatch], (hnone.settleReady _).ready, ?_⟩
      exact settled_of_headers (headers_settle (header_abortActive between)) hnone.dispatches
  · exact (h.afterSend ⟨hframe.checked, hframe.hello⟩ (.dispatch n)).fields rfl rfl rfl rfl rfl

theorem WithinLimit.settled (h : WithinLimit config session) (n : Nat) :
    WithinLimit config (session.settleDispatch n) := by
  refine h.congr id rfl rfl fun hnone => ⟨hnone.state, hnone.ready, ?_⟩
  exact settled_modify hnone.dispatches

theorem WithinLimit.dispatch (h : WithinLimit config session) (request : Request) :
    WithinLimit config (session.dispatch port config request) := by
  unfold Session.dispatch
  simp only
  split
  · refine respond ?_ (.of_unchecked rfl (by simp))
    refine h.congr id rfl rfl fun hnone => ⟨hnone.state, hnone.ready, ?_⟩
    exact settled_deliver hnone.dispatches
  · rename_i hrefusal
    refine h.congr id rfl rfl fun hnone => ?_
    -- a session that is not ready refuses
    simp [refusal, hnone.state] at hrefusal

theorem WithinLimit.handlerSettled (h : WithinLimit config session) (n : Nat)
    (outcome : HandlerOutcome) :
    WithinLimit config (session.handlerSettled port config n outcome) := by
  refine handlerSettled_keeps h (fun dispatch hdispatch hsettled frame hframe => ?_) (h.settled n)
    fun _ _ h => h.fields rfl rfl rfl rfl rfl
  have hremote : session.remote ≠ none := fun hnone => by
    simp [(h.unwelcomed hnone).dispatches dispatch (mem_of_getElem? hdispatch)] at hsettled
  rcases hframe with ⟨id, error, rfl⟩ | ⟨⟨id, result, rfl⟩, hsize⟩
  · exact (h.settled n).respond (.of_unchecked rfl (by simp))
  · exact (h.settled n).respond ⟨fun _ => ⟨hremote, hsize⟩, by simp⟩

/-! ### Every turn -/

theorem WithinLimit.welcome (h : WithinLimit config session) (greeting : Hello)
    (effectiveMinor : Nat) (hstate : session.state = .handshaking) :
    WithinLimit config (session.welcome config greeting effectiveMinor) := by
  refine ⟨fun hafter => absurd hafter (by simp [Session.welcome]), h.hello,
    fun hnone => absurd hnone (by simp [Session.welcome]),
    fun hnone => absurd hnone (by simp [Session.welcome]), ?_⟩
  intro sent hmem hchecked
  have hunsent := h.unsent (h.handshaking hstate) sent hmem
  rw [hunsent] at hchecked
  exact absurd hchecked Bool.false_ne_true

theorem WithinLimit.quiet {leaves : Bool} (before after : Session σ) (h : WithinLimit config before)
    (hquiet : Quiet config leaves before after) : WithinLimit config after := by
  refine ⟨fun hstate => ?_, fun sent hmem greeting hgreeting => ?_, fun hnone => ?_,
    fun hnone sent hmem => ?_, fun sent hmem hchecked => ?_⟩
  · rw [hquiet.remote]
    exact h.handshaking (hquiet.state ▸ hstate)
  · rcases hquiet.permitted sent hmem with hold | hnew
    · exact h.hello sent hold greeting hgreeting
    · rw [hgreeting] at hnew
      exact hnew
  · have hbefore := h.unwelcomed (hquiet.remote ▸ hnone)
    exact ⟨hquiet.state ▸ hbefore.state, fun remote hready =>
      hbefore.ready remote (hquiet.ready remote hready),
      settled_of_headers hquiet.headers hbefore.dispatches⟩
  · rw [hquiet.remote] at hnone
    rcases hquiet.permitted sent hmem with hold | hnew
    · exact h.unsent hnone sent hold
    · cases hframe : sent.frame <;> rw [hframe] at hnew
      case req request =>
        obtain ⟨⟨remote, hready⟩, -⟩ := hnew
        exact absurd hready ((h.unwelcomed hnone).ready remote)
      all_goals first | rfl | exact hnew.elim
  · rw [sendLimit, hquiet.remote]
    rcases hquiet.permitted sent hmem with hold | hnew
    · exact h.sized sent hold hchecked
    · cases hframe : sent.frame <;> rw [hframe] at hnew hchecked
      case req request => exact hnew.2
      all_goals first | exact hnew.elim | simp [isChecked] at hchecked

theorem WithinLimit.step (h : WithinLimit config session) (input : Input) :
    WithinLimit config (session.step port config input) := by
  have hteardown : ∀ (session : Session σ) closure, WithinLimit config session →
      WithinLimit config (session.teardown closure) := fun _ closure h => h.teardown closure
  by_cases hinput : input.aside = true
  · exact step_quiet hteardown WithinLimit.quiet hinput h
  · cases input with
    | receive frame =>
      cases frame with
      | hello greeting =>
        exact receiveHello_quiet hteardown WithinLimit.quiet greeting h fun _ hstate _ =>
          h.welcome greeting _ hstate
      | req request =>
        simp only [Session.step, Session.receive]
        split_ifs
        · exact h
        · exact h.dispatch request
      | _ => exact absurd rfl hinput
    | handlerSettled n outcome => exact h.handlerSettled n outcome
    | emit event => exact h.emit event
    | _ => exact absurd rfl hinput

theorem WithinLimit.construct (port : Port σ) (config : Config) (state : σ) :
    WithinLimit config (construct port config state) := by
  refine construct_quiet (fun _ closure h => h.teardown closure) WithinLimit.quiet state
    ⟨fun _ => rfl, ?_, fun _ => ⟨by simp, by simp, ?_⟩, fun _ => ?_, ?_⟩
  all_goals grind

/-- Whatever the port and the peer do, a session that has not taken the peer's hello is not
ready, has sent no request, event or result and runs no request of the peer; and a hello that it
sends is the one of its configuration. -/
theorem handshake_comes_first (port : Port σ) (config : Config) (state : σ)
    (inputs : List Input) :
    let session := Session.after port config state inputs
    (session.remote = none → session.state ≠ .ready ∧
      (∀ remote, session.ready ≠ some (.ok remote)) ∧
      (∀ dispatch ∈ session.dispatches, dispatch.settled = true) ∧
      ∀ sent ∈ session.sent, isChecked sent.frame = false) ∧
    ∀ sent ∈ session.sent, ∀ greeting, sent.frame = .hello greeting →
      greeting = buildHello config := by
  intro session
  have hwithin : WithinLimit config session := Run.run_invariant
    (fun _ input h => h.step input) (WithinLimit.construct port config state) inputs
  refine ⟨fun hnone => ?_, hwithin.hello⟩
  have hunwelcomed := hwithin.unwelcomed hnone
  exact ⟨hunwelcomed.state, hunwelcomed.ready, hunwelcomed.dispatches, hwithin.unsent hnone⟩

/-! ## What a session knows of its peer -/

/-- If the peer's hello has come, these are the limits it announced. -/
def Knows (limits : Option Limits) (session : Session σ) : Prop :=
  ∀ peer, session.remote = some peer → peer.limits = limits

variable {limits : Option Limits}

theorem Knows.of_remote {before after : Session σ} (h : Knows limits before)
    (hremote : after.remote = before.remote) : Knows limits after :=
  fun peer hpeer => h peer (hremote ▸ hpeer)

theorem Knows.teardown (session : Session σ) (closure : SessionClosure)
    (h : Knows limits session) : Knows limits (session.teardown closure) :=
  h.of_remote (teardown_remote closure)

theorem Knows.quiet {leaves : Bool} (before after : Session σ) (h : Knows limits before)
    (hquiet : Quiet config leaves before after) : Knows limits after :=
  h.of_remote hquiet.remote

theorem Knows.trySend (h : Knows limits session) (origin : Origin)
    (frame : Frame) : Knows limits (session.trySend port origin frame) :=
  trySend_keeps Knows.teardown h (h.of_remote rfl)

theorem Knows.step (h : Knows limits session) {input : Input}
    (hinput : ∀ greeting, input = .receive (.hello greeting) → greeting.limits = limits) :
    Knows limits (session.step port config input) := by
  by_cases haside : input.aside = true
  · exact step_quiet Knows.teardown Knows.quiet haside h
  · cases input with
    | receive frame =>
      cases frame with
      | hello greeting =>
        refine receiveHello_quiet Knows.teardown Knows.quiet greeting h fun _ _ _ => ?_
        intro peer hpeer
        rw [← some.inj hpeer]
        exact hinput greeting rfl
      | req request =>
        simp only [Session.step, Session.receive, Session.dispatch]
        split_ifs
        · exact h
        · split
          · have hdelivered : Knows limits
                { session with dispatches := session.dispatches ++ [{ request := request }] } :=
              h.of_remote rfl
            exact (hdelivered.trySend _ _).of_remote rfl
          · exact h.of_remote rfl
      | _ => exact absurd rfl haside
    | handlerSettled n outcome =>
      exact handlerSettled_keeps h (fun _ _ _ _ _ => (h.trySend _ _).of_remote rfl)
        (h.of_remote rfl) fun _ _ h => h.of_remote rfl
    | emit event =>
      exact emit_keeps h (fun _ _ => send_keeps Knows.teardown (h.of_remote rfl))
        fun _ _ h => h.of_remote rfl
    | _ => exact absurd rfl haside

/-! ## Two sessions -/

/-- Two sessions and how much of what each port accepted the other has received. -/
structure Link (σ τ : Type) where
  left : Session σ
  right : Session τ
  toLeft : Nat := 0
  toRight : Nat := 0

/-- One side takes a turn of its own, or receives the next frame of the other. -/
inductive Move where
  | left (input : Input)
  | right (input : Input)
  | deliverLeft
  | deliverRight

/-- A turn that the transport has no part in. -/
def Input.isLocal : Input → Bool
  | .receive _ => false
  | _ => true

section Link

variable (leftPort : Port σ) (rightPort : Port τ) (leftConfig rightConfig : Config)

/-- Frames arrive in the order in which the other port accepted them, each
once. -/
def Link.step (link : Link σ τ) : Move → Link σ τ
  | .left input =>
    if input.isLocal then { link with left := link.left.step leftPort leftConfig input } else link
  | .right input =>
    if input.isLocal then { link with right := link.right.step rightPort rightConfig input }
    else link
  | .deliverLeft =>
    match link.right.sent[link.toLeft]? with
    | none => link
    | some sent =>
      { link with
        left := link.left.step leftPort leftConfig (.receive sent.frame)
        toLeft := link.toLeft + 1 }
  | .deliverRight =>
    match link.left.sent[link.toRight]? with
    | none => link
    | some sent =>
      { link with
        right := link.right.step rightPort rightConfig (.receive sent.frame)
        toRight := link.toRight + 1 }

/-- The two sessions after their constructors and a list of moves. -/
def Link.after (leftState : σ) (rightState : τ) (moves : List Move) : Link σ τ :=
  Run.run (Link.step leftPort rightPort leftConfig rightConfig)
    { left := Session.construct leftPort leftConfig leftState
      right := Session.construct rightPort rightConfig rightState } moves

end Link

variable {leftPort : Port σ} {rightPort : Port τ} {leftConfig rightConfig : Config}

/-- Each side is within its limit, and knows what the other announces. -/
structure Link.Agrees (leftConfig rightConfig : Config) (link : Link σ τ) : Prop where
  left : WithinLimit leftConfig link.left
  right : WithinLimit rightConfig link.right
  leftKnows : Knows (Session.buildHello rightConfig).limits link.left
  rightKnows : Knows (Session.buildHello leftConfig).limits link.right

theorem WithinLimit.limits_of_sent (h : WithinLimit config session) {sent : Sent}
    (hsent : session.sent[n]? = some sent) (greeting : Hello)
    (hgreeting : Input.receive sent.frame = .receive (.hello greeting)) :
    greeting.limits = (buildHello config).limits := by
  rw [h.hello sent (mem_of_getElem? hsent) greeting (Input.receive.inj hgreeting)]

theorem Link.Agrees.step {link : Link σ τ} (h : Link.Agrees leftConfig rightConfig link)
    (move : Move) :
    Link.Agrees leftConfig rightConfig
      (link.step leftPort rightPort leftConfig rightConfig move) := by
  have hlocal : ∀ input : Input, input.isLocal = true → ∀ limits greeting,
      input = .receive (.hello greeting) → greeting.limits = limits := by
    intro input hinput limits greeting hreceive
    rw [hreceive] at hinput
    exact absurd hinput (by simp [Input.isLocal])
  cases move with
  | left input =>
    simp only [Link.step]
    split_ifs with hinput
    · exact ⟨h.left.step input, h.right, h.leftKnows.step (hlocal input hinput _), h.rightKnows⟩
    · exact h
  | right input =>
    simp only [Link.step]
    split_ifs with hinput
    · exact ⟨h.left, h.right.step input, h.leftKnows, h.rightKnows.step (hlocal input hinput _)⟩
    · exact h
  | deliverLeft =>
    simp only [Link.step]
    split
    · exact h
    · rename_i sent hsent
      exact ⟨h.left.step (.receive sent.frame), h.right,
        h.leftKnows.step (h.right.limits_of_sent hsent), h.rightKnows⟩
  | deliverRight =>
    simp only [Link.step]
    split
    · exact h
    · rename_i sent hsent
      exact ⟨h.left, h.right.step (.receive sent.frame), h.leftKnows,
        h.rightKnows.step (h.left.limits_of_sent hsent)⟩

theorem Link.Agrees.after (leftPort : Port σ) (rightPort : Port τ)
    (leftConfig rightConfig : Config) (leftState : σ) (rightState : τ) (moves : List Move) :
    Link.Agrees leftConfig rightConfig
      (Link.after leftPort rightPort leftConfig rightConfig leftState rightState moves) := by
  have hunknown : ∀ {σ : Type} (port : Port σ) (config : Config) (state : σ) limits,
      Knows limits (construct port config state) := by
    intro σ port config state limits
    refine construct_quiet Knows.teardown Knows.quiet state ?_
    intro peer hpeer
    cases hpeer
  exact Run.run_invariant (fun _ move h => h.step move)
    ⟨.construct leftPort leftConfig leftState, .construct rightPort rightConfig rightState,
      hunknown _ _ _ _, hunknown _ _ _ _⟩ moves

/-- In every run of two connected sessions, in any order of deliveries, what either side takes
for the limits of the other is what the other announced. -/
theorem peers_agree_on_limits (leftPort : Port σ) (rightPort : Port τ)
    (leftConfig rightConfig : Config) (leftState : σ) (rightState : τ) (moves : List Move) :
    let link := Link.after leftPort rightPort leftConfig rightConfig leftState rightState moves
    (∀ peer, link.left.remote = some peer → peer.limits = (buildHello rightConfig).limits) ∧
      ∀ peer, link.right.remote = some peer → peer.limits = (buildHello leftConfig).limits := by
  have hagrees := Link.Agrees.after leftPort rightPort leftConfig rightConfig leftState rightState
    moves
  exact ⟨hagrees.leftKnows, hagrees.rightKnows⟩

theorem WithinLimit.measure_le_announced {peerConfig : Config} (h : WithinLimit config session)
    (hknows : Knows (buildHello peerConfig).limits session) {sent : Sent}
    (hmem : sent ∈ session.sent) (hchecked : isChecked sent.frame = true) :
    measureFrameBytes sent.frame ≤ announced peerConfig := by
  have hsized := h.sized sent hmem hchecked
  cases hremote : session.remote with
  | none =>
    have hunsent := h.unsent hremote sent hmem
    rw [hunsent] at hchecked
    exact absurd hchecked Bool.false_ne_true
  | some peer =>
    have hlimits := hknows peer hremote
    rw [sendLimit, hremote, sendLimitBytes, bind_some, hlimits] at hsized
    exact le_trans hsized (Nat.min_le_right _ _)

/-- The frames of either side that are requests, events or results are within
the decoder limit of the other side's port, for every combination of options
and port limits that the constructors take. -/
theorem sent_frames_within_peer_decoder {leftOptions rightOptions : SessionOptions}
    (hleft : configure leftOptions leftPort.maxFrameBytes = .ok leftConfig)
    (hright : configure rightOptions rightPort.maxFrameBytes = .ok rightConfig)
    (leftState : σ) (rightState : τ) (moves : List Move) :
    (∀ sent ∈ (Link.after leftPort rightPort leftConfig rightConfig leftState rightState
        moves).left.sent, isChecked sent.frame = true →
      ∀ limit, rightPort.maxFrameBytes = some limit → measureFrameBytes sent.frame ≤ limit) ∧
    ∀ sent ∈ (Link.after leftPort rightPort leftConfig rightConfig leftState rightState
        moves).right.sent, isChecked sent.frame = true →
      ∀ limit, leftPort.maxFrameBytes = some limit → measureFrameBytes sent.frame ≤ limit := by
  have hagrees := Link.Agrees.after leftPort rightPort leftConfig rightConfig leftState rightState
    moves
  refine ⟨?_, ?_⟩
  · intro sent hmem hchecked limit hlimit
    rw [hlimit] at hright
    exact le_trans (hagrees.left.measure_le_announced hagrees.leftKnows hmem hchecked)
      (announced_le hright)
  · intro sent hmem hchecked limit hlimit
    rw [hlimit] at hleft
    exact le_trans (hagrees.right.measure_le_announced hagrees.rightKnows hmem hchecked)
      (announced_le hleft)

/-- The hellos cross, and the left side sends a request. -/
def crossing : List Move :=
  [.deliverLeft, .deliverRight, .left (.request "engine.status" .null none), .left (.resume 0)]

theorem sent_frames_within_peer_decoder_crossing :
    (Link.after (openNdjsonPort .least) (openNdjsonPort .least) statusConfig statusConfig [] []
        crossing).left.sent.map (fun sent => isChecked sent.frame) = [false, true] ∧
      ∀ sent ∈ (Link.after (openNdjsonPort .least) (openNdjsonPort .least) statusConfig
          statusConfig [] [] crossing).left.sent, isChecked sent.frame = true →
        measureFrameBytes sent.frame ≤ minAnnouncedFrameBytes := by
  refine ⟨by decide +kernel, fun sent hmem hchecked => ?_⟩
  exact (sent_frames_within_peer_decoder configure_statusOptions configure_statusOptions [] []
    crossing).1 sent hmem hchecked _ rfl

end MangoStudio.Protocol.Ts
