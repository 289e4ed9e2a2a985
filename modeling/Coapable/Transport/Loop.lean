import Coapable.Foundation.Execution
import Coapable.Transport.Stack

/-!
# Runs of the event loop

`loopMachine` is the loop driven by its environment: the input of a step is an
`Iteration`, its output the list of effects.  A step is an iteration that
finishes; an iteration in which the task panics or returns has no successor.

Two counters that are not variables of the loop belong to its environment.
The clock never goes back.  One-shot channels are numbered in the order in
which the loop takes the requests that carry them, so that two requests never
share a channel.

`step_cases` says once what a step can do; every invariant of the loop is
derived from it.
-/

namespace Coapable.Transport

open Coapable.CoapLite
open Coapable.Foundation.Execution
open Coapable.Foundation.FiniteMap
open Coapable.MessageTypes

/-- The stack with its clock, as an iteration finds it. -/
structure Loop where
  stack : CoapStack
  clock : Nat
  /-- How many one-shot channels the loop was handed so far. -/
  channels : Nat
  deriving DecidableEq

/-- The channel the iteration takes over, if it takes a client request. -/
def Iteration.channelTaken (iteration : Iteration) :
    Option ResponseSender :=
  match iteration.branch with
  | .outboundRequest (some outbound) => some outbound.responseTx
  | _ => none

/-- An address on the local host. -/
def SocketAddr.loopback (port : UInt16) : SocketAddr :=
  ⟨[127, 0, 0, 1], port⟩

/-- An iteration in which every draw is the least one and the endpoint is
alive. -/
def Iteration.plain (now : Nat) (branch : Branch) : Iteration where
  now := now
  drawnMid := 0
  drawnToken := 0
  ackTimeout := .shortest
  endpointOpen := true
  branch := branch

namespace Loop

/-- The clock does not go back, the branch is ready, and a request carries a
channel of its own. -/
def Admits (loop : Loop) (iteration : Iteration) : Prop :=
  loop.clock ≤ iteration.now ∧ loop.stack.Ready iteration ∧
    ∀ sender ∈ iteration.channelTaken, sender = ⟨loop.channels⟩

instance (loop : Loop) (iteration : Iteration) :
    Decidable (loop.Admits iteration) :=
  inferInstanceAs (Decidable (_ ∧ _ ∧ _))

/-- One iteration, `none` if it is not admitted or ends the task. -/
def step (codec : Codec) (loop : Loop) (iteration : Iteration) :
    Option (Loop × List Effect) :=
  if loop.Admits iteration then
    match loop.stack.iterate codec iteration with
    | .ok (stack, effects) =>
        some (
          { stack := stack
            clock := iteration.now
            channels :=
              loop.channels + iteration.channelTaken.toList.length },
          effects)
    | .error _ => none
  else none

/-- The state in which the spawned task enters the loop at a given time. -/
def start (now : Nat) : Loop where
  stack := ⟨∅, now + idleSessionCleanupInterval⟩
  clock := now
  channels := 0

end Loop

/-- The loop as a machine whose inputs are the iterations. -/
def loopMachine (codec : Codec) :
    Machine Loop Iteration (List Effect) where
  Initial loop := ∃ now, loop = Loop.start now
  step := Loop.step codec

/-- One iteration that was run. -/
abbrev LoopTransition := Transition Loop Iteration (List Effect)

/-- A run of the loop: its history, newest iteration first. -/
abbrev LoopRun (codec : Codec) := Run (loopMachine codec)

/-! ## What a step can do -/

/-- The branch bodies that finish, one constructor for each way. -/
inductive BranchStep (codec : Codec) (stack : CoapStack)
    (iteration : Iteration) : CoapStack → List Effect → Prop where
  | unparsed {raw : Bytes} {peer : SocketAddr}
      (taken : iteration.branch = .inbound raw peer)
      (unparseable : codec.fromBytes raw = none) :
      BranchStep codec stack iteration stack []
  | inbound {raw : Bytes} {peer : SocketAddr} {parsed : Packet}
      {session : PeerSession} {effects : List Effect}
      (taken : iteration.branch = .inbound raw peer)
      (parses : codec.fromBytes raw = some parsed)
      (received :
        receivePacket codec (stack.sessionFor iteration peer)
          iteration.now peer parsed = .ok (session, effects)) :
      BranchStep codec stack iteration
        (stack.putSession peer session) effects
  | request {outbound : OutboundRequest}
      (taken : iteration.branch = .outboundRequest (some outbound)) :
      BranchStep codec stack iteration
        (stack.putSession outbound.peer
          (sendOutboundRequest codec
            (stack.sessionFor iteration outbound.peer)
            iteration outbound).1)
        (sendOutboundRequest codec
          (stack.sessionFor iteration outbound.peer)
          iteration outbound).2
  | response {outbound : ServerResponse}
      (taken : iteration.branch = .outboundResponse (some outbound)) :
      BranchStep codec stack iteration
        (stack.putSession outbound.peer
          (sendOutboundResponse codec
            (stack.sessionFor iteration outbound.peer) outbound).1)
        (sendOutboundResponse codec
          (stack.sessionFor iteration outbound.peer) outbound).2
  | timer {order : List (SocketAddr × List Token)}
      (taken : iteration.branch = .retransmissionTimer order)
      (due : ∃ deadline ∈ stack.nextDeadline, deadline ≤ iteration.now)
      (enumerates : stack.EnumeratesSessions order) :
      BranchStep codec stack iteration
        (stack.retransmit iteration.now order).1
        (stack.retransmit iteration.now order).2
  | cleanup
      (taken : iteration.branch = .cleanupTimer)
      (due : stack.nextCleanup ≤ iteration.now) :
      BranchStep codec stack iteration
        (stack.cleanup iteration.now) []

theorem branchBody_cases
    {codec : Codec} {stack after : CoapStack} {iteration : Iteration}
    {effects : List Effect}
    (ready : stack.Ready iteration)
    (finished : stack.branchBody codec iteration = .ok (after, effects)) :
    BranchStep codec stack iteration after effects := by
  simp only [CoapStack.branchBody] at finished
  split at finished
  · next raw peer taken =>
      split at finished
      · split at finished
        · cases finished
        · next result inboundFinished =>
            injection finished with equal
            subst equal
            simp only [CoapStack.inbound] at inboundFinished
            split at inboundFinished
            · next unparseable =>
                injection inboundFinished with equal
                injection equal with stackEqual effectsEqual
                subst stackEqual
                subst effectsEqual
                exact .unparsed taken unparseable
            · next parsed parses =>
                split at inboundFinished
                · cases inboundFinished
                · next session sessionEffects received =>
                    injection inboundFinished with equal
                    injection equal with stackEqual effectsEqual
                    subst stackEqual
                    subst effectsEqual
                    exact .inbound taken parses received
      · cases finished
  · next outbound taken =>
      injection finished with equal
      injection equal with stackEqual effectsEqual
      subst stackEqual
      subst effectsEqual
      exact .request taken
  · cases finished
  · next outbound taken =>
      injection finished with equal
      injection equal with stackEqual effectsEqual
      subst stackEqual
      subst effectsEqual
      exact .response taken
  · cases finished
  · next order taken =>
      injection finished with equal
      have target := congrArg Prod.fst equal
      have emitted := congrArg Prod.snd equal
      subst target
      subst emitted
      rw [CoapStack.Ready, taken] at ready
      exact .timer taken ready.1 ready.2
  · next taken =>
      injection finished with equal
      injection equal with stackEqual effectsEqual
      subst stackEqual
      subst effectsEqual
      rw [CoapStack.Ready, taken] at ready
      exact .cleanup taken ready

/-- What is known of an iteration that takes the timer branch. -/
theorem BranchStep.of_timer
    {codec : Codec} {stack after : CoapStack} {iteration : Iteration}
    {effects : List Effect} {order : List (SocketAddr × List Token)}
    (branch : BranchStep codec stack iteration after effects)
    (isTimer : iteration.branch = .retransmissionTimer order) :
    (∃ deadline ∈ stack.nextDeadline, deadline ≤ iteration.now) ∧
      stack.EnumeratesSessions order ∧
        after = (stack.retransmit iteration.now order).1 ∧
          effects = (stack.retransmit iteration.now order).2 := by
  cases branch with
  | timer taken due enumerates =>
      rw [isTimer] at taken
      cases taken
      exact ⟨due, enumerates, rfl, rfl⟩
  | unparsed taken | inbound taken | request taken | response taken
  | cleanup taken =>
      rw [isTimer] at taken
      cases taken

/-- What is known of an iteration that takes a client request. -/
theorem BranchStep.of_request
    {codec : Codec} {stack after : CoapStack} {iteration : Iteration}
    {effects : List Effect} {outbound : OutboundRequest}
    (branch : BranchStep codec stack iteration after effects)
    (isRequest : iteration.branch = .outboundRequest (some outbound)) :
    after = stack.putSession outbound.peer
        (sendOutboundRequest codec
          (stack.sessionFor iteration outbound.peer) iteration
          outbound).1 ∧
      effects = (sendOutboundRequest codec
        (stack.sessionFor iteration outbound.peer) iteration
        outbound).2 := by
  cases branch with
  | request taken =>
      rw [isRequest] at taken
      cases taken
      exact ⟨rfl, rfl⟩
  | unparsed taken | inbound taken | timer taken | response taken
  | cleanup taken =>
      rw [isRequest] at taken
      cases taken

/-- What is known of an iteration that receives a packet. -/
theorem BranchStep.of_inbound
    {codec : Codec} {stack after : CoapStack} {iteration : Iteration}
    {effects : List Effect} {raw : Bytes} {peer : SocketAddr}
    {parsed : Packet}
    (branch : BranchStep codec stack iteration after effects)
    (isInbound : iteration.branch = .inbound raw peer)
    (parses : codec.fromBytes raw = some parsed) :
    ∃ session, after = stack.putSession peer session ∧
      receivePacket codec (stack.sessionFor iteration peer) iteration.now
        peer parsed = .ok (session, effects) := by
  cases branch with
  | unparsed taken unparseable =>
      cases isInbound.symm.trans taken
      cases parses.symm.trans unparseable
  | inbound taken parsesNow received =>
      cases isInbound.symm.trans taken
      cases parses.symm.trans parsesNow
      exact ⟨_, rfl, received⟩
  | request taken | response taken | timer taken | cleanup taken =>
      cases isInbound.symm.trans taken

/-- What is known of an iteration that takes a server response. -/
theorem BranchStep.of_response
    {codec : Codec} {stack after : CoapStack} {iteration : Iteration}
    {effects : List Effect} {outbound : ServerResponse}
    (branch : BranchStep codec stack iteration after effects)
    (isResponse : iteration.branch = .outboundResponse (some outbound)) :
    after = stack.putSession outbound.peer
        (sendOutboundResponse codec
          (stack.sessionFor iteration outbound.peer) outbound).1 ∧
      effects = (sendOutboundResponse codec
        (stack.sessionFor iteration outbound.peer) outbound).2 := by
  cases branch with
  | response taken =>
      rw [isResponse] at taken
      cases taken
      exact ⟨rfl, rfl⟩
  | unparsed taken | inbound taken | timer taken | request taken
  | cleanup taken =>
      rw [isResponse] at taken
      cases taken

/-- What is known of an iteration that takes the cleanup branch. -/
theorem BranchStep.of_cleanup
    {codec : Codec} {stack after : CoapStack} {iteration : Iteration}
    {effects : List Effect}
    (branch : BranchStep codec stack iteration after effects)
    (isCleanup : iteration.branch = .cleanupTimer) :
    after = stack.cleanup iteration.now := by
  cases branch with
  | cleanup taken due => rfl
  | unparsed taken | inbound taken | timer taken | request taken
  | response taken =>
      rw [isCleanup] at taken
      cases taken

/-- What a step of the loop can do. -/
structure StepFacts (codec : Codec) (loop : Loop) (iteration : Iteration)
    (after : Loop) (effects : List Effect) : Prop where
  clock_le : loop.clock ≤ iteration.now
  clock_after : after.clock = iteration.now
  channels_after : after.channels =
    loop.channels + iteration.channelTaken.toList.length
  channel_fresh : ∀ sender ∈ iteration.channelTaken,
    sender = ⟨loop.channels⟩
  branch : BranchStep codec loop.stack iteration after.stack effects

theorem step_cases
    {codec : Codec} {loop after : Loop} {iteration : Iteration}
    {effects : List Effect}
    (stepped : loop.step codec iteration = some (after, effects)) :
    StepFacts codec loop iteration after effects := by
  simp only [Loop.step] at stepped
  split at stepped
  · next admitted =>
      split at stepped
      · next stack stackEffects iterated =>
          injection stepped with equal
          injection equal with loopEqual effectsEqual
          subst loopEqual
          subst effectsEqual
          simp only [CoapStack.iterate] at iterated
          split at iterated
          · cases iterated
          · next body bodyEffects finished =>
              split at iterated
              · cases iterated
              · injection iterated with equal
                injection equal with stackEqual effectsEqual
                subst stackEqual
                subst effectsEqual
                exact {
                  clock_le := admitted.1
                  clock_after := rfl
                  channels_after := rfl
                  channel_fresh := admitted.2.2
                  branch := branchBody_cases admitted.2.1 finished }
      · cases stepped
  · cases stepped

/-- A spawned loop is an initial state of the machine. -/
theorem Loop.initial_start (codec : Codec) (now : Nat) :
    (loopMachine codec).Initial (Loop.start now) :=
  ⟨now, rfl⟩

theorem LoopRun.facts_of_mem
    {codec : Codec} {history : List LoopTransition} {loop : Loop}
    {transition : LoopTransition}
    (run : LoopRun codec history loop)
    (member : transition ∈ history) :
    StepFacts codec transition.before transition.input
      transition.after transition.output :=
  step_cases (run.stepped_of_mem member)

/-! ## The clock along a run -/

/-- No iteration of the past ran later than the clock shows. -/
theorem LoopRun.now_le_clock
    {codec : Codec} {history : List LoopTransition} {loop : Loop}
    (run : LoopRun codec history loop) :
    ∀ transition ∈ history, transition.input.now ≤ loop.clock := by
  refine run.invariant
    (fun history loop =>
      ∀ transition ∈ history, transition.input.now ≤ loop.clock) ?_ ?_
  · intro loop _ transition member
    cases member
  · intro history before after iteration effects _ earlier stepped
      transition member
    have facts := step_cases stepped
    rw [facts.clock_after]
    rcases List.mem_cons.mp member with rfl | older
    · exact le_rfl
    · exact (earlier transition older).trans facts.clock_le

/-- No iteration runs later than the iterations after it. -/
theorem LoopRun.now_le_of_suffix
    {codec : Codec} {history : List LoopTransition} {loop : Loop}
    {later : LoopTransition} {older : List LoopTransition}
    (run : LoopRun codec history loop)
    (suffix : later :: older <:+ history) :
    ∀ earlier ∈ older, earlier.input.now ≤ later.input.now := by
  rcases run.of_suffix suffix with ⟨earlierRun, stepped⟩
  intro earlier member
  exact (LoopRun.now_le_clock earlierRun earlier member).trans
    (step_cases stepped).clock_le

end Coapable.Transport
