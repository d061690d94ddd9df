import Mathlib.Logic.Function.Basic
import M1Switch.Common.Types
import M1Switch.Library.EventRun

/-
  Requests of guest threads to services.

  All requests go through one buffer, as the patched code has
  one address for thread-local storage.  While no thread asks
  or starts during another's call, the calls are as good as
  made one after the other.

  Key definitions include:
    * `step`
    * `serve`

  Main results:
    * `served_of_alone`
-/

namespace M1Switch

/- `TLS_IPC_SIZE` bytes. -/
abbrev IpcBuffer : Type := Fin 0x100 → U8

structure IpcReply where
  result : U32
  respBuf : IpcBuffer
  respSize : Nat

/- The reply is copied over the front of the buffer. -/
def IpcReply.over
    (r : IpcReply)
    (buffer : IpcBuffer) : IpcBuffer :=
  fun i => if i < r.respSize then r.respBuf i else buffer i

/- A session and what is sent to it. -/
abbrev SyncRequest : Type := U32 × IpcBuffer

inductive SyncCall where
  | idle
  | asked (req : SyncRequest)
  | copied (req : SyncRequest) (ipcBuf : IpcBuffer)
  | handled (req : SyncRequest) (reply : IpcReply)
  | replied (req : SyncRequest) (reply : IpcReply)

/- Threads with their requests, results and what they read. -/
abbrev Served (T : Type) : Type :=
  List (T × SyncRequest × U32 × IpcBuffer)

structure SyncRequests (T S : Type) where
  buffer : IpcBuffer
  services : S
  calls : T → SyncCall := fun _ => .idle
  served : Served T := []

/- A guest that is run finds the host's bytes in the buffer. -/
inductive SyncEvent (T : Type) where
  | runGuest (hostTls : IpcBuffer)
  | ask (t : T) (req : SyncRequest)
  | advance (t : T)

/- Whether there is guest memory, and where the buffer is. -/
structure SyncHost where
  hasMemory : Bool
  fixedTls : U64

/- Requests are passed on. -/
def SyncHost.ready (host : SyncHost) : Bool :=
  host.hasMemory && host.fixedTls != 0

/- Success, and nothing is written. -/
def IpcReply.nothing : IpcReply :=
  { result := 0
    respBuf := fun _ => 0
    respSize := 0 }

theorem IpcReply.nothing_over (buffer : IpcBuffer) :
    IpcReply.nothing.over buffer = buffer := by
  funext i
  exact if_neg (Nat.not_lt_zero _)

namespace SyncRequests

variable {T S : Type} [DecidableEq T] {host : SyncHost}
variable {handle : S → U32 → IpcBuffer → S × IpcReply}
variable {start s : S} {st : SyncRequests T S}

def goOn
    (st : SyncRequests T S)
    (t : T)
    (call : SyncCall) : SyncRequests T S :=
  { st with calls := Function.update st.calls t call }

/- `SvcSendSyncRequest`, and then the guest reads the reply. -/
def advance
    (host : SyncHost)
    (handle : S → U32 → IpcBuffer → S × IpcReply)
    (st : SyncRequests T S)
    (t : T) : SyncRequests T S :=
  match st.calls t with
  | .idle => st
  | .asked req =>
      if host.ready then st.goOn t (.copied req st.buffer)
      else st.goOn t (.replied req .nothing)
  | .copied req ipcBuf =>
      let r := handle st.services req.1 ipcBuf
      { st with services := r.1 }.goOn t (.handled req r.2)
  | .handled req reply =>
      { st with buffer := reply.over st.buffer }.goOn t
        (.replied req reply)
  | .replied req reply =>
      { st with
        served :=
          st.served ++ [(t, req, reply.result, st.buffer)] }.goOn
        t .idle

def step
    (host : SyncHost)
    (handle : S → U32 → IpcBuffer → S × IpcReply)
    (st : SyncRequests T S) :
    SyncEvent T → SyncRequests T S
  | .runGuest hostTls => { st with buffer := hostTls }
  | .ask t req =>
      { st with buffer := req.2 }.goOn t (.asked req)
  | .advance t => st.advance host handle t

/- No call is in progress when a thread starts or asks. -/
def Alone (st : SyncRequests T S) : SyncEvent T → Prop
  | .runGuest _ | .ask _ _ => ∀ u, st.calls u = .idle
  | .advance _ => True

/- What becomes of a request. -/
def answer
    (host : SyncHost)
    (handle : S → U32 → IpcBuffer → S × IpcReply)
    (s : S)
    (session : U32)
    (request : IpcBuffer) : S × IpcReply :=
  if host.ready then handle s session request
  else (s, .nothing)

omit [DecidableEq T] in
/- A call that is made at once. -/
def serve
    (handle : S → U32 → IpcBuffer → S × IpcReply)
    (done : S × Served T)
    (call : T × SyncRequest) : S × Served T :=
  let r := handle done.1 call.2.1 call.2.2
  (r.1, done.2 ++
    [(call.1, call.2, r.2.result, r.2.over call.2.2)])

/- What a call has done to the services, which were `s`. -/
def Halfway
    (host : SyncHost)
    (handle : S → U32 → IpcBuffer → S × IpcReply)
    (st : SyncRequests T S)
    (s : S) : SyncCall → Prop
  | .idle => st.services = s
  | .asked req => st.services = s ∧ st.buffer = req.2
  | .copied req ipcBuf =>
      host.ready = true ∧ st.services = s ∧
        st.buffer = req.2 ∧ ipcBuf = req.2
  | .handled req reply =>
      (st.services, reply) =
          answer host handle s req.1 req.2 ∧
        st.buffer = req.2
  | .replied req reply =>
      (st.services, reply) =
          answer host handle s req.1 req.2 ∧
        st.buffer = reply.over req.2

/- At most one call is in progress. -/
def Ordered
    (host : SyncHost)
    (handle : S → U32 → IpcBuffer → S × IpcReply)
    (start : S)
    (st : SyncRequests T S) : Prop :=
  ∃ t s order,
    (∀ u, u ≠ t → st.calls u = .idle) ∧
      (s, st.served) =
          List.foldl (serve (answer host handle)) (start, [])
            order ∧
        Halfway host handle st s (st.calls t)

theorem ordered_goOn
    {t : T}
    {call : SyncCall}
    {order : List (T × SyncRequest)}
    (hIdle : ∀ u, u ≠ t → st.calls u = .idle)
    (hOrder :
      (s, st.served) =
        List.foldl (serve (answer host handle)) (start, [])
          order)
    (hHalf : Halfway host handle st s call) :
    Ordered host handle start (st.goOn t call) := by
  refine ⟨t, s, order, ?_, hOrder, ?_⟩
  · intro u hU
    exact (Function.update_of_ne hU _ _).trans (hIdle u hU)
  · show
      Halfway host handle _ s (Function.update st.calls t call t)
    rw [Function.update_self]
    cases call <;> exact hHalf

/- A request that has been placed is copied, or answered. -/
theorem ordered_asked
    {t : T}
    {req : SyncRequest}
    {order : List (T × SyncRequest)}
    (hIdle : ∀ u, u ≠ t → st.calls u = .idle)
    (hOrder :
      (s, st.served) =
        List.foldl (serve (answer host handle)) (start, [])
          order)
    (hHalf : st.services = s ∧ st.buffer = req.2) :
    Ordered host handle start
      (if host.ready then st.goOn t (.copied req st.buffer)
        else st.goOn t (.replied req .nothing)) := by
  split_ifs with hReady
  · exact
      ordered_goOn hIdle hOrder
        ⟨hReady, hHalf.1, hHalf.2, hHalf.2⟩
  · refine ordered_goOn hIdle hOrder ⟨?_, ?_⟩
    · unfold answer
      rw [if_neg hReady, hHalf.1]
    · rw [IpcReply.nothing_over]
      exact hHalf.2

theorem Ordered.step
    {e : SyncEvent T}
    (hOrdered : Ordered host handle start st)
    (hAlone : st.Alone e) :
    Ordered host handle start (st.step host handle e) := by
  rcases hOrdered with ⟨t, s, order, hIdle, hOrder, hHalf⟩
  cases e with
  | runGuest hostTls =>
      have hRest : st.calls t = .idle := hAlone t
      rw [hRest] at hHalf
      refine ⟨t, s, order, hIdle, hOrder, ?_⟩
      show Halfway host handle _ s (st.calls t)
      rw [hRest]
      exact hHalf
  | ask u req =>
      have hRest : st.calls t = .idle := hAlone t
      rw [hRest] at hHalf
      exact
        ordered_goOn (fun v _ => hAlone v) hOrder ⟨hHalf, rfl⟩
  | advance u =>
      show Ordered host handle start (st.advance host handle u)
      by_cases hU : u = t
      · subst hU
        unfold advance
        have hHere := hHalf
        cases hCall : st.calls u <;> rw [hCall] at hHalf
        · exact ⟨u, s, order, hIdle, hOrder, hHere⟩
        · exact ordered_asked hIdle hOrder hHalf
        next req ipcBuf =>
          rcases hHalf with ⟨hReady, hServices, hBuffer, hCopy⟩
          refine ordered_goOn hIdle hOrder ⟨?_, hBuffer⟩
          unfold answer
          rw [if_pos hReady, hServices, hCopy]
        · exact
            ordered_goOn hIdle hOrder
              ⟨hHalf.1, congrArg (IpcReply.over _) hHalf.2⟩
        next req reply =>
          have hServe :
              (st.services,
                st.served ++
                  [(u, req, reply.result, st.buffer)]) =
                serve (answer host handle) (s, st.served)
                  (u, req) := by
            simp [serve, ← hHalf.1, hHalf.2]
          have hMore :
              serve (answer host handle) (s, st.served)
                  (u, req) =
                List.foldl (serve (answer host handle))
                  (start, []) (order ++ [(u, req)]) := by
            rw [List.foldl_append, ← hOrder]
            rfl
          exact ordered_goOn hIdle (hServe.trans hMore) rfl
      · unfold advance
        rw [hIdle u hU]
        exact ⟨t, s, order, hIdle, hOrder, hHalf⟩

/-
  What the threads have read is what they had read of calls
  made one by one.
-/
theorem served_of_alone
    [Nonempty T]
    {buffer : IpcBuffer}
    {events : List (SyncEvent T)}
    (hAlone :
      EventRun.Guarded (step host handle) Alone
        { buffer := buffer, services := start } events) :
    let st :=
      EventRun.stateAfter (step host handle)
        { buffer := buffer, services := start } events
    ∃ s order,
      (s, st.served) =
          List.foldl (serve (answer host handle)) (start, [])
            order ∧
        ((∀ t, st.calls t = .idle) → st.services = s) := by
  have hStart :
      Ordered (T := T) host handle start
        { buffer := buffer, services := start } :=
    ⟨Classical.arbitrary T, start, [], fun _ _ => rfl, rfl, rfl⟩
  rcases hAlone.invariant (I := fun _ => Ordered host handle start)
    hStart (fun _ _ hOrdered => hOrdered.step) with
    ⟨t, s, order, _, hOrder, hHalf⟩
  refine ⟨s, order, hOrder, ?_⟩
  intro hIdle
  rw [hIdle t] at hHalf
  exact hHalf

/- Requests are counted and sent back. -/
def echo
    (n : Nat)
    (_ : U32)
    (request : IpcBuffer) : Nat × IpcReply :=
  (n + 1,
    { result := 0
      respBuf := request
      respSize := 0x100 })

/- One thread makes a call, starts again, and so does another. -/
def twoThreads : List (SyncEvent Bool) :=
  .ask true (1, fun _ => 7) ::
    List.replicate 4 (.advance true) ++
      .runGuest (fun _ => 0) ::
        .ask false (2, fun _ => 8) ::
          List.replicate 4 (.advance false)

def someHost : SyncHost :=
  { hasMemory := true
    fixedTls := 0x100000000 }

theorem served_of_alone_echo :
    let st :=
      EventRun.stateAfter (step someHost echo)
        { buffer := fun _ => 0, services := 0 } twoThreads
    st.services = 2 ∧ st.served.length = 2 ∧
      ∃ s order,
        (s, st.served) =
          List.foldl (serve (answer someHost echo)) (0, [])
            order := by
  have hAlone :
      EventRun.Guarded (step someHost echo) Alone
        { buffer := fun _ => 0, services := 0 } twoThreads := by
    simp only [twoThreads, List.replicate, List.cons_append,
      List.nil_append, EventRun.guarded_cons,
      EventRun.guarded_nil, and_true]
    refine ⟨?_, trivial, trivial, trivial, trivial, ?_, ?_,
      trivial, trivial, trivial, trivial⟩
    -- No call is in progress at any of the three starts.
    · intro u
      cases u <;> rfl
    · intro u
      cases u <;> rfl
    · intro u
      cases u <;> rfl
  rcases served_of_alone hAlone with ⟨s, order, hOrder, -⟩
  exact ⟨rfl, rfl, s, order, hOrder⟩

end SyncRequests

end M1Switch
