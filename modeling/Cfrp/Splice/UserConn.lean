import Cfrp.Client.Convergence
import Cfrp.Server.Announce

/-!
# Clients and the users they are told of

A `World` is the server with any number of client programs. The server tells a session of a
user and its ticket; the client of the session connects to the local service, opens a work
stream of the mux session it has at that time, and writes the ticket to it; and the server
hands the user to the work stream. Whatever the client programs send besides may be any
message, and work streams are opened by `HandleNewUserConn` and `HandleNewUdpUserConn` only.

A job is one call of `HandleNewUserConn` with all its callbacks. `session`, `polls` and `opened`
of a job, `used` of a work stream, and `muxes`, `heard` and `splices` record what happened.
-/

namespace Cfrp

open Lib Protocol Conf

abbrev ProcessId := Nat
abbrev JobId := Nat
abbrev WorkId := Nat

namespace Client

/-- The search of `HandleNewUserConn`: the static proxies first. -/
def findProxy (s : Client) (proxyName : String) : Option ProxyConfig :=
  match s.proxies.find? fun pc => pc.name == proxyName with
  | some pc => some pc
  | none => s.dynamicProxies.lookup proxyName

/-- `dynamic_proxies_` is what the last poll has found. -/
def Remembers (s : Client) : Prop :=
  s.dynamicProxies = (s.found.getLast?.map parseDirectory).getD ∅

/-- The service under a name, for a client that has polled so many times: the first static
proxy of this name or, where there is none, the one that the last of these polls has found. -/
def Configured (s : Client) (polls : Nat) (name : String) (pc : ProxyConfig) : Prop :=
  match s.proxies.find? fun pc => pc.name == name with
  | some static => pc = static
  | none => ∃ k files, polls = k + 1 ∧ s.found[k]? = some files ∧
      (parseDirectory files).lookup name = some pc

variable {s s' : Client}

theorem remembers_init (token name confDPath : String) (proxies : List ProxyConfig) :
    (init token name confDPath proxies).Remembers := rfl

/-- The static proxies stay, and the polls only become more. -/
structure Polls (s s' : Client) : Prop where
  proxies : s'.proxies = s.proxies
  found : s.found <+: s'.found

theorem Polls.refl (s : Client) : Polls s s := ⟨rfl, List.prefix_refl _⟩

/-- A step leaves what is remembered alone, or it is the end of a poll. -/
theorem step_services {e : Event} (h : s.step e = some s') : s'.proxies = s.proxies ∧
    (s'.dynamicProxies = s.dynamicProxies ∧ s'.found = s.found ∨
      ∃ files, s'.dynamicProxies = parseDirectory files ∧ s'.found = s.found ++ [files]) := by
  have hobey : ∀ (s : Client) (o : ProxyOrder), (s.obey o).proxies = s.proxies ∧
      ((s.obey o).dynamicProxies = s.dynamicProxies ∧ (s.obey o).found = s.found) := by
    intro s o
    obtain ⟨_, heq⟩ := obey_eq s o
    rw [heq]
    exact ⟨rfl, rfl, rfl⟩
  cases e with
  | connect | disconnect =>
      cases h
      exact ⟨rfl, .inl ⟨rfl, rfl⟩⟩
  | send =>
      cases hposted : s.posted with
      | nil =>
          rw [step, hposted] at h
          cases h
      | cons msg rest =>
          rw [step, hposted] at h
          cases h
          rw [sendMessage]
          split
          · exact ⟨rfl, .inl ⟨rfl, rfl⟩⟩
          · exact ⟨rfl, .inl ⟨rfl, rfl⟩⟩
  | loginOk | expire | poll =>
      obtain ⟨-, h⟩ := Option.ite_none_right_eq_some.mp h
      cases h
      exact ⟨rfl, .inl ⟨rfl, rfl⟩⟩
  | startMonitor i scan =>
      rw [step] at h
      split at h
      · obtain ⟨-, h⟩ := Option.ite_none_right_eq_some.mp h
        cases h
        exact ⟨rfl, .inl ⟨rfl, rfl⟩⟩
      · cases h
  | goOn i =>
      obtain ⟨u, -, h⟩ := Option.bind_eq_some_iff.mp h
      cases u with
      | login rest =>
          cases rest with
          | nil =>
              obtain ⟨-, h⟩ := Option.ite_none_right_eq_some.mp h
              cases h
              exact ⟨rfl, .inl ⟨rfl, rfl⟩⟩
          | cons pc rest =>
              cases h
              obtain ⟨hproxies, hsame⟩ := hobey { s with
                updaters := s.updaters.set i (.login rest) } (.register pc)
              exact ⟨hproxies, .inl hsame⟩
      | poll rest files =>
          cases rest with
          | nil =>
              cases h
              exact ⟨rfl, .inr ⟨files, rfl, rfl⟩⟩
          | cons o rest =>
              cases h
              obtain ⟨hproxies, hsame⟩ := hobey { s with
                updaters := s.updaters.set i (.poll rest files) } o
              exact ⟨hproxies, .inl hsame⟩

theorem polls_step {e : Event} (h : s.step e = some s') : Polls s s' := by
  obtain ⟨hproxies, ⟨-, hfound⟩ | ⟨files, -, hfound⟩⟩ := step_services h
  · exact ⟨hproxies, by rw [hfound]⟩
  · exact ⟨hproxies, by rw [hfound]; exact List.prefix_append _ _⟩

theorem Remembers.step {e : Event} (h : s.Remembers) (hstep : s.step e = some s') :
    s'.Remembers := by
  rcases (step_services hstep).2 with ⟨hdynamic, hfound⟩ | ⟨files, hdynamic, hfound⟩
  · rw [Remembers, hdynamic, hfound]
    exact h
  · rw [Remembers, hdynamic, hfound, List.getLast?_concat]
    rfl

theorem Configured.mono {polls : Nat} {n : String} {pc : ProxyConfig}
    (h : s.Configured polls n pc) (hs : Polls s s') : s'.Configured polls n pc := by
  rw [Configured] at h ⊢
  rw [hs.proxies]
  split
  · rename_i hstatic
    rw [hstatic] at h
    exact h
  · rename_i hstatic
    rw [hstatic] at h
    obtain ⟨k, files, hpolls, hk, hlookup⟩ := h
    obtain ⟨more, hmore⟩ := hs.found
    refine ⟨k, files, hpolls, ?_, hlookup⟩
    rw [← hmore, List.getElem?_append_left (List.getElem?_eq_some_iff.mp hk).1, hk]

/-- What `HandleNewUserConn` finds is filed under the name that it looks for. -/
theorem Remembers.findProxy (h : s.Remembers) {n : String} {pc : ProxyConfig}
    (hfind : s.findProxy n = some pc) : pc.name = n ∧ s.Configured s.found.length n pc := by
  rw [Client.findProxy] at hfind
  rw [Configured]
  -- the static proxies come first
  split at hfind
  · rename_i pc' hstatic
    obtain rfl := Option.some.inj hfind
    exact ⟨eq_of_beq (List.find?_some (p := fun pc : ProxyConfig => pc.name == n) hstatic), rfl⟩
  · rw [Remembers] at h
    cases hlast : s.found.getLast? with
    | none =>
        rw [h, hlast] at hfind
        simp at hfind
    -- the last poll is what the client remembers
    | some files =>
        rw [h, hlast] at hfind
        have hlookup : (parseDirectory files).lookup n = some pc := hfind
        have hne : s.found ≠ [] := by
          intro hnil
          rw [hnil] at hlast
          cases hlast
        have hpos := List.length_pos_of_ne_nil hne
        refine ⟨parseDirectory_name hlookup, s.found.length - 1, files, by omega, ?_, hlookup⟩
        rw [← List.getLast?_eq_getElem?, hlast]

end Client

/-- A client program. -/
structure Process where
  client : Client
  compression : Bool
  muxSession : Option MuxId := none

/-- How far a call of `HandleNewUserConn` has got. -/
inductive JobStage where
  /-- A TCP service is resolved, and connected to. -/
  | dialing
  /-- The ticket is being written to the work stream. -/
  | writing (work : WorkId)
  /-- A UDP service is resolved. -/
  | resolving (work : WorkId)
  /-- The local connection is bridged with the work stream. -/
  | bridged (work : WorkId) (useCompression : Bool)
  | over
  deriving DecidableEq

/-- The work stream that it holds. -/
def JobStage.work : JobStage → Option WorkId
  | .writing i | .resolving i | .bridged i _ => some i
  | .dialing | .over => none

structure UserJob where
  process : ProcessId
  /-- The session that was told. -/
  session : CtrlId
  ticket : String
  pc : ProxyConfig
  /-- How many times the client had polled `conf.d` when it was told. -/
  polls : Nat := 0
  stage : JobStage := .dialing
  /-- The work stream that it has opened. -/
  opened : Option WorkId := none
  deriving DecidableEq

/-- A work stream and the 65 bytes that are written to it. -/
structure WorkStream where
  mux : MuxId
  job : JobId
  bytes : List Byte
  /-- The server has read them. -/
  used : Bool := false
  deriving DecidableEq

structure World where
  server : Server
  processes : List Process := []
  /-- The program that has opened each mux session. -/
  muxes : List ProcessId := []
  jobs : List UserJob := []
  works : List WorkStream := []
  /-- How many of the messages to a session its client has handled. -/
  heard : CtrlId → Nat := fun _ => 0
  /-- The users handed out, each with the work stream it was handed to. -/
  splices : List (HandOver × WorkId) := []

namespace World

def start (token : String) (ports : List PortRange) (clients : List String) : World :=
  { server := Server.init token ports clients }

def setStage (w : World) (j : JobId) (stage : JobStage) : World :=
  { w with jobs := w.jobs.modify j fun job => { job with stage } }

/-- `open_stream` and the `async_write` of the ticket, if there is a mux session. -/
def sendTicket (w : World) (j : JobId) (job : UserJob) : World :=
  match w.processes[job.process]? with
  | none => w
  | some proc =>
      match proc.muxSession with
      | none => w.setStage j .over
      | some mux =>
          let i := w.works.length
          { w with
            jobs := w.jobs.modify j fun job =>
              { job with stage := .writing i, opened := some i }
            works := w.works ++
              [{ mux, job := j, bytes := ticketBytes proc.compression job.ticket }] }

/-- `HandleNewUserConn`; for UDP `HandleNewUdpUserConn`. -/
def handleNewUserConn (w : World) (p : ProcessId) (proc : Process) (c : CtrlId)
    (m : NewUserConnMessage) : World :=
  match proc.client.findProxy m.proxyName with
  | none => w
  | some pc =>
      let job : UserJob :=
        { process := p, session := c, ticket := m.ticket, pc, polls := proc.client.found.length }
      -- a UDP service is not connected to, so its ticket goes out at once
      let w' := { w with jobs := w.jobs ++ [job] }
      if pc.type = "udp" then w'.sendTicket w.jobs.length job else w'

/-- `HandleMessage`, as far as users are concerned. -/
def handleMessage (w : World) (p : ProcessId) (proc : Process) (c : CtrlId) : Message → World
  | .newUserConn m => w.handleNewUserConn p proc c m
  | _ => w

/-- The handler of the `async_write` of a ticket. -/
def onWritten (w : World) (j : JobId) (job : UserJob) (i : WorkId) (ok : Bool) : World :=
  if !ok then w.setStage j .over
  else if job.pc.type = "udp" then w.setStage j (.resolving i)
  else
    match w.processes[job.process]? with
    | none => w
    | some proc => w.setStage j (.bridged i proc.compression)

/-- The handler of the `async_resolve` of a UDP service. -/
def onResolved (w : World) (j : JobId) (job : UserJob) (i : WorkId) (ok : Bool) : World :=
  if !ok then w.setStage j .over
  else
    match w.processes[job.process]? with
    | none => w
    | some proc => w.setStage j (.bridged i proc.compression)

/-- `mux_session_` after a step of the client: `OnConnect` makes a new one and
`HandleDisconnect` drops it. -/
def onClient (w : World) (p : ProcessId) (proc : Process) (client : Client) :
    Client.Event → World
  | .connect =>
      { w with
        processes := w.processes.set p { proc with client, muxSession := some w.muxes.length }
        muxes := w.muxes ++ [p] }
  | .disconnect =>
      { w with processes := w.processes.set p { proc with client, muxSession := none } }
  | _ => { w with processes := w.processes.set p { proc with client } }

/-- The work branch of `HandleNewMuxStream`, for a work stream that there is. -/
def present (w : World) (i : WorkId) (work : WorkStream) (server : Server) : World :=
  { w with
    server
    works := w.works.set i { work with used := true }
    splices := w.splices ++
      (server.handed.drop w.server.handed.length).map fun hand => (hand, i) }

/-! ## The transition system -/

inductive Event where
  /-- A client program starts. -/
  | launch (token name confDPath : String) (proxies : List ProxyConfig) (compression : Bool)
  | client (p : ProcessId) (e : Client.Event)
  | server (e : Server.Event)
  /-- The client of a session handles the next message to it. -/
  | hear (c : CtrlId)
  /-- The local TCP service is connected to, or it cannot be. -/
  | dialed (j : JobId) (ok : Bool)
  | written (j : JobId) (ok : Bool)
  | resolved (j : JobId) (ok : Bool)
  /-- The server has read the 65 bytes of a work stream. -/
  | present (i : WorkId)

/-- What the server may do by itself: a mux session is there when a client has opened it. -/
def serverMay (w : World) : Server.Event → Bool
  | .workStream .. => false
  | .controlStream mux => mux < w.muxes.length
  | _ => true

def step (w : World) : Event → Option World
  | .launch token name confDPath proxies compression =>
      some { w with
        processes := w.processes ++
          [{ client := Client.init token name confDPath proxies, compression }] }
  | .client p e =>
      (w.processes[p]?).bind fun proc =>
        (proc.client.step e).map fun client => w.onClient p proc client e
  | .server e =>
      if w.serverMay e then (w.server.step e).map fun server => { w with server } else none
  | .hear c =>
      (w.server.muxOf c).bind fun mux => (w.muxes[mux]?).bind fun p =>
        (w.processes[p]?).bind fun proc => ((sentTo c w.server.sent)[w.heard c]?).map fun msg =>
          { w with heard := Function.update w.heard c (w.heard c + 1) }.handleMessage p proc c msg
  | .dialed j ok =>
      (w.jobs[j]?).bind fun job =>
        if job.stage = .dialing then
          some (if ok then w.sendTicket j job else w.setStage j .over)
        else none
  | .written j ok =>
      (w.jobs[j]?).bind fun job =>
        match job.stage with
        | .writing i => some (w.onWritten j job i ok)
        | _ => none
  | .resolved j ok =>
      (w.jobs[j]?).bind fun job =>
        match job.stage with
        | .resolving i => some (w.onResolved j job i ok)
        | _ => none
  | .present i =>
      (w.works[i]?).bind fun work =>
        if work.used then none
        else
          (w.server.step (.workStream work.mux work.bytes)).map fun server =>
            w.present i work server

end World

end Cfrp
