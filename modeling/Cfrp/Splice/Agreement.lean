import Cfrp.Lib.Keyed
import Cfrp.Server.HandOver
import Cfrp.Splice.UserConn

/-!
# Users and local connections

A user that the server hands out is joined to a work stream, and a work stream to a job of the
client that has opened it. The tickets hold the two together: the announcement of a ticket is
unique as long as tickets are drawn afresh, so there is one job for it at most, and the job
opens one work stream at most. Nothing is asked of the client programs, which need not even
send on the session that they were told on: a client that has reconnected meanwhile presents
the ticket on its new mux session.
-/

namespace Cfrp

open Lib Protocol

namespace World

/-! ## What does not change -/

/-- The programs, what they were told, and what belongs to whom stay as they are, and a work
stream or a job is only taken further. -/
structure Grows (w w' : World) : Prop where
  announced : ∀ {c k n t}, w.server.AnnouncedAt c k n t → w'.server.AnnouncedAt c k n t
  muxOf : ∀ {c mux}, w.server.muxOf c = some mux → w'.server.muxOf c = some mux
  muxes : ∀ {mux : MuxId} {p}, w.muxes[mux]? = some p → w'.muxes[mux]? = some p
  processes : ∀ {p : ProcessId} {proc}, w.processes[p]? = some proc →
    ∃ proc', w'.processes[p]? = some proc' ∧ proc'.compression = proc.compression ∧
      Client.Polls proc.client proc'.client
  heard : ∀ c, w.heard c ≤ w'.heard c
  jobs : ∀ {j : JobId} {job}, w.jobs[j]? = some job → ∃ stage opened,
    w'.jobs[j]? = some { job with stage, opened } ∧ ∀ i, job.opened = some i → opened = some i
  works : ∀ {i : WorkId} {work}, w.works[i]? = some work → ∃ used,
    w'.works[i]? = some { work with used } ∧ (work.used = true → used = true)

variable {w w' : World}

theorem Grows.refl (w : World) : Grows w w :=
  ⟨id, id, id, fun h => ⟨_, h, rfl, Client.Polls.refl _⟩, fun _ => Nat.le_refl _,
    fun h => ⟨_, _, h, fun _ => id⟩, fun h => ⟨_, h, id⟩⟩

/-- A job has the announcement, the owner and the service that it should have. -/
structure Placed (w : World) (job : UserJob) : Prop where
  announced : ∃ k < w.heard job.session,
    w.server.AnnouncedAt job.session k job.pc.name job.ticket
  owner : ∃ mux, w.server.muxOf job.session = some mux ∧ w.muxes[mux]? = some job.process
  service : ∃ proc, w.processes[job.process]? = some proc ∧
    proc.client.Configured job.polls job.pc.name job.pc

theorem Placed.mono {job : UserJob} (h : Placed w job) (hw : Grows w w') : Placed w' job := by
  obtain ⟨⟨k, hk, ha⟩, ⟨mux, hmux, hp⟩, proc, hproc, hservice⟩ := h
  obtain ⟨proc', hproc', -, hpolls⟩ := hw.processes hproc
  exact ⟨⟨k, Nat.lt_of_lt_of_le hk (hw.heard _), hw.announced ha⟩,
    ⟨mux, hw.muxOf hmux, hw.muxes hp⟩, proc', hproc', hservice.mono hpolls⟩

/-- The stage of a job fits the work stream that it has opened. -/
structure Staged (w : World) (job : UserJob) : Prop where
  dialing : job.stage = .dialing → job.opened = none
  holds : ∀ i, job.stage.work = some i → job.opened = some i
  flag : ∀ {i b}, job.stage = .bridged i b →
    ∃ proc, w.processes[job.process]? = some proc ∧ b = proc.compression

theorem Staged.mono {job : UserJob} (h : Staged w job) (hw : Grows w w') : Staged w' job := by
  refine ⟨h.dialing, h.holds, fun hstage => ?_⟩
  obtain ⟨proc, hproc, rfl⟩ := h.flag hstage
  obtain ⟨proc', hproc', hcompression, -⟩ := hw.processes hproc
  exact ⟨proc', hproc', hcompression.symm⟩

/-- A work stream is the one that its job has opened, to present the job's ticket. -/
def Opened (w : World) (i : WorkId) (work : WorkStream) : Prop :=
  ∃ job proc, w.jobs[work.job]? = some job ∧ job.opened = some i ∧
    w.muxes[work.mux]? = some job.process ∧ w.processes[job.process]? = some proc ∧
    work.bytes = ticketBytes proc.compression job.ticket

theorem Opened.mono {i : WorkId} {work work' : WorkStream} (h : Opened w i work)
    (hw : Grows w w') (hmux : work'.mux = work.mux) (hjob : work'.job = work.job)
    (hbytes : work'.bytes = work.bytes) : Opened w' i work' := by
  obtain ⟨job, proc, hj, hopened, hp, hproc, hwritten⟩ := h
  obtain ⟨stage, opened, hj', hkept⟩ := hw.jobs hj
  obtain ⟨proc', hproc', hcompression, -⟩ := hw.processes hproc
  refine ⟨{ job with stage, opened }, proc', hjob ▸ hj', hkept i hopened, hmux ▸ hw.muxes hp,
    hproc', ?_⟩
  rw [hbytes, hwritten, hcompression]

/-- **The two ends of a splice.** The user that was handed out and the work stream belong
together: the job of the work stream is the one for the announcement of the user. -/
def Joined (w : World) (hand : HandOver) (i : WorkId) : Prop :=
  ∃ work job proc, w.works[i]? = some work ∧ work.used = true ∧ w.jobs[work.job]? = some job ∧
    job.opened = some i ∧ w.processes[job.process]? = some proc ∧ job.session = hand.owner ∧
    job.ticket = hand.ticket ∧ job.pc.name = hand.proxyName ∧
    hand.useCompression = proc.compression

theorem Joined.mono {hand : HandOver} {i : WorkId} (h : Joined w hand i) (hw : Grows w w') :
    Joined w' hand i := by
  obtain ⟨work, job, proc, hi, hused, hj, hopened, hproc, hsession, hticket, hname, hflag⟩ := h
  obtain ⟨used, hi', hkept⟩ := hw.works hi
  obtain ⟨stage, opened, hj', hopened'⟩ := hw.jobs hj
  obtain ⟨proc', hproc', hcompression, -⟩ := hw.processes hproc
  exact ⟨_, _, proc', hi', hkept hused, hj', hopened' i hopened, hproc', hsession, hticket, hname,
    hflag.trans hcompression.symm⟩

structure Inv (w : World) : Prop where
  announced : Server.Announced w.server
  remembers : ∀ {p : ProcessId} {proc}, w.processes[p]? = some proc → proc.client.Remembers
  muxSession : ∀ {p : ProcessId} {proc mux}, w.processes[p]? = some proc →
    proc.muxSession = some mux → w.muxes[mux]? = some p
  placed : ∀ {j : JobId} {job}, w.jobs[j]? = some job → Placed w job
  staged : ∀ {j : JobId} {job}, w.jobs[j]? = some job → Staged w job
  tickets : (w.jobs.map UserJob.ticket).Nodup
  works : ∀ {i : WorkId} {work}, w.works[i]? = some work → Opened w i work
  handed : w.server.handed = w.splices.map Prod.fst
  joined : ∀ {hand i}, (hand, i) ∈ w.splices → Joined w hand i
  once : (w.splices.map Prod.snd).Nodup

theorem inv_start (token : String) (ports : List PortRange) (clients : List String) :
    Inv (start token ports clients) where
  announced := Server.announced_init token ports clients
  remembers h := by cases h
  muxSession h := by cases h
  placed h := by cases h
  staged h := by cases h
  tickets := List.nodup_nil
  works h := by cases h
  handed := rfl
  joined h := absurd h List.not_mem_nil
  once := List.nodup_nil

/-! ## Jobs -/

section Jobs

variable {j : JobId} {job : UserJob} {f : UserJob → UserJob} {stage : JobStage}
  {opened : Option WorkId} {works : List WorkStream}

/-- A job is taken further. -/
theorem grows_modify (hj : w.jobs[j]? = some job) (hf : f job = { job with stage, opened })
    (hopened : ∀ i, job.opened = some i → opened = some i)
    (hworks : ∀ {i : WorkId} {work}, w.works[i]? = some work → works[i]? = some work) :
    Grows w { w with jobs := w.jobs.modify j f, works } where
  announced := id
  muxOf := id
  muxes := id
  processes h := ⟨_, h, rfl, Client.Polls.refl _⟩
  heard _ := Nat.le_refl _
  jobs {j' job'} h := by
    by_cases hjj : j = j'
    · subst hjj
      rw [hj] at h
      obtain rfl := Option.some.inj h
      refine ⟨stage, opened, ?_, hopened⟩
      rw [List.getElem?_modify_eq, hj, ← hf]
      rfl
    · refine ⟨job'.stage, job'.opened, ?_, fun _ => id⟩
      rw [List.getElem?_modify_ne _ _ hjj, h]
  works {i work} h := ⟨work.used, hworks h, id⟩

theorem Inv.modify (h : Inv w) (hj : w.jobs[j]? = some job)
    (hf : f job = { job with stage, opened })
    (hopened : ∀ i, job.opened = some i → opened = some i)
    (hstaged : Staged w { job with stage, opened })
    (hworks : ∀ {i : WorkId} {work}, w.works[i]? = some work → works[i]? = some work)
    (hmore : ∀ {i : WorkId} {work}, works[i]? = some work → w.works[i]? = some work ∨
      Opened { w with jobs := w.jobs.modify j f, works } i work) :
    Inv { w with jobs := w.jobs.modify j f, works } := by
  have hw := grows_modify hj hf hopened hworks
  have hticket : (f job).ticket = job.ticket := by rw [hf]
  constructor
  case placed =>
    intro j' job' hj'
    rcases of_getElem?_modify hj hj' with ⟨-, rfl⟩ | ⟨-, hj'⟩
    · obtain ⟨hannounced, howner, hservice⟩ := (h.placed hj).mono hw
      rw [hf]
      exact ⟨hannounced, howner, hservice⟩
    · exact (h.placed hj').mono hw
  case staged =>
    intro j' job' hj'
    rcases of_getElem?_modify hj hj' with ⟨-, rfl⟩ | ⟨-, hj'⟩
    · rw [hf]
      exact hstaged.mono hw
    · exact (h.staged hj').mono hw
  case tickets =>
    show ((w.jobs.modify j f).map UserJob.ticket).Nodup
    rw [map_key_modify hj hticket]
    exact h.tickets
  case works =>
    intro i work hi
    rcases hmore hi with hi | hnew
    · exact (h.works hi).mono hw rfl rfl rfl
    · exact hnew
  case announced => exact h.announced
  case remembers => exact h.remembers
  case muxSession => exact h.muxSession
  case handed => exact h.handed
  case joined => exact fun hmem => (h.joined hmem).mono hw
  case once => exact h.once

theorem Inv.setStage (h : Inv w) (hj : w.jobs[j]? = some job)
    (hstaged : Staged w { job with stage }) : Inv (w.setStage j stage) :=
  h.modify hj rfl (fun _ => id) hstaged id Or.inl

theorem staged_over (w : World) (job : UserJob) : Staged w { job with stage := .over } where
  dialing h := by cases h
  holds _ h := by cases h
  flag h := by cases h

theorem Inv.sendTicket (h : Inv w) (hj : w.jobs[j]? = some job) (hnone : job.opened = none) :
    Inv (w.sendTicket j job) := by
  rw [World.sendTicket]
  cases hproc : w.processes[job.process]? with
  | none => exact h
  | some proc =>
      dsimp only
      cases hmux : proc.muxSession with
      | none => exact h.setStage hj (staged_over w job)
      | some mux =>
          refine Inv.modify h hj rfl (fun i hi => ?_) ?_ getElem?_concat_of_some
            fun {i work} hi => ?_
          · rw [hnone] at hi
            cases hi
          · exact ⟨fun hs => (by cases hs), fun i hi => hi, fun hs => (by cases hs)⟩
          · refine (of_getElem?_concat hi).imp id ?_
            rintro ⟨rfl, rfl⟩
            refine ⟨{ job with stage := .writing w.works.length, opened := some w.works.length },
              proc, ?_, rfl, h.muxSession hproc hmux, hproc, rfl⟩
            rw [List.getElem?_modify_eq, hj]
            rfl

theorem staged_bridged {i : WorkId} {proc : Process} (hopened : job.opened = some i)
    (hproc : w.processes[job.process]? = some proc) :
    Staged w { job with stage := .bridged i proc.compression } where
  dialing h := by cases h
  holds k hk := by
    rw [← Option.some.inj hk]
    exact hopened
  flag h := by
    obtain ⟨-, rfl⟩ := JobStage.bridged.inj h
    exact ⟨proc, hproc, rfl⟩

theorem Inv.onWritten (h : Inv w) (hj : w.jobs[j]? = some job) {i : WorkId}
    (hstage : job.stage = .writing i) (ok : Bool) : Inv (w.onWritten j job i ok) := by
  have hopened : job.opened = some i := (h.staged hj).holds i (by rw [hstage]; rfl)
  rw [World.onWritten]
  split
  · exact h.setStage hj (staged_over w job)
  · split
    · refine h.setStage hj ⟨fun hs => (by cases hs), fun k hk => ?_, fun hs => (by cases hs)⟩
      rw [← Option.some.inj hk]
      exact hopened
    · cases hproc : w.processes[job.process]? with
      | none => exact h
      | some proc => exact h.setStage hj (staged_bridged hopened hproc)

theorem Inv.onResolved (h : Inv w) (hj : w.jobs[j]? = some job) {i : WorkId}
    (hstage : job.stage = .resolving i) (ok : Bool) : Inv (w.onResolved j job i ok) := by
  have hopened : job.opened = some i := (h.staged hj).holds i (by rw [hstage]; rfl)
  rw [World.onResolved]
  split
  · exact h.setStage hj (staged_over w job)
  · cases hproc : w.processes[job.process]? with
    | none => exact h
    | some proc => exact h.setStage hj (staged_bridged hopened hproc)

end Jobs

/-! ## Hearing of a user -/

/-- The client handles a message that says nothing about users. -/
theorem grows_hear (w : World) (c : CtrlId) :
    Grows w { w with heard := Function.update w.heard c (w.heard c + 1) } :=
  { Grows.refl w with
    heard := fun d => by
      show w.heard d ≤ Function.update w.heard c (w.heard c + 1) d
      rw [Function.update_apply]
      split
      · rename_i hd
        rw [hd]
        exact Nat.le_succ _
      · exact Nat.le_refl _ }

theorem Inv.mono (h : Inv w) (hw : Grows w w') (hserver : Server.Announced w'.server)
    (hhanded : w'.server.handed = w.server.handed)
    (hremembers : ∀ {p : ProcessId} {proc}, w'.processes[p]? = some proc → proc.client.Remembers)
    (hmux : ∀ {p : ProcessId} {proc mux}, w'.processes[p]? = some proc →
      proc.muxSession = some mux → w'.muxes[mux]? = some p)
    (hjobs : w'.jobs = w.jobs) (hworks : w'.works = w.works) (hsplices : w'.splices = w.splices) :
    Inv w' where
  announced := hserver
  remembers := hremembers
  muxSession := hmux
  placed hj := (h.placed (hjobs ▸ hj)).mono hw
  staged hj := (h.staged (hjobs ▸ hj)).mono hw
  tickets := hjobs ▸ h.tickets
  works hi := (h.works (hworks ▸ hi)).mono hw rfl rfl rfl
  handed := by rw [hhanded, hsplices, h.handed]
  joined hmem := (h.joined (hsplices ▸ hmem)).mono hw
  once := hsplices ▸ h.once

theorem Inv.bump (h : Inv w) (c : CtrlId) :
    Inv { w with heard := Function.update w.heard c (w.heard c + 1) } :=
  h.mono (grows_hear w c) h.announced rfl h.remembers h.muxSession rfl rfl rfl

/-- A new job is for a user that no other job is for. -/
theorem Inv.addJob (h : Inv w) {job : UserJob} (hplaced : Placed w job)
    (hstage : job.stage = .dialing) (hopened : job.opened = none)
    (hnew : ∀ old ∈ w.jobs, old.ticket ≠ job.ticket) :
    Inv { w with jobs := w.jobs ++ [job] } := by
  have hw : Grows w { w with jobs := w.jobs ++ [job] } :=
    { Grows.refl w with
      jobs := fun {j old} hj => ⟨old.stage, old.opened, getElem?_concat_of_some hj, fun _ => id⟩ }
  have hstaged : Staged w job := by
    refine ⟨fun _ => hopened, fun i hi => ?_, fun hs => ?_⟩
    · rw [hstage] at hi
      cases hi
    · rw [hstage] at hs
      cases hs
  constructor
  case placed =>
    intro j' job' hj'
    rcases of_getElem?_concat hj' with hj' | ⟨-, rfl⟩
    · exact (h.placed hj').mono hw
    · exact hplaced.mono hw
  case staged =>
    intro j' job' hj'
    rcases of_getElem?_concat hj' with hj' | ⟨-, rfl⟩
    · exact (h.staged hj').mono hw
    · exact hstaged.mono hw
  case tickets => exact nodup_concat h.tickets hnew
  case works => exact fun hi => (h.works hi).mono hw rfl rfl rfl
  case announced => exact h.announced
  case remembers => exact h.remembers
  case muxSession => exact h.muxSession
  case handed => exact h.handed
  case joined => exact fun hmem => (h.joined hmem).mono hw
  case once => exact h.once

theorem Inv.hear (h : Inv w) {c : CtrlId} {mux : MuxId} {p : ProcessId} {proc : Process}
    {msg : Message} (hmux : w.server.muxOf c = some mux) (hp : w.muxes[mux]? = some p)
    (hproc : w.processes[p]? = some proc) (hmsg : (sentTo c w.server.sent)[w.heard c]? = some msg) :
    Inv ({ w with heard := Function.update w.heard c (w.heard c + 1) }.handleMessage p proc c
      msg) := by
  have hbump := h.bump c
  cases msg with
  | newUserConn m =>
      rw [handleMessage, handleNewUserConn]
      cases hfind : proc.client.findProxy m.proxyName with
      | none => exact hbump
      | some pc =>
          obtain ⟨hname, hservice⟩ := Client.Remembers.findProxy (h.remembers hproc) hfind
          have hplaced : Placed { w with heard := Function.update w.heard c (w.heard c + 1) }
              { process := p, session := c, ticket := m.ticket, pc
                polls := proc.client.found.length } := by
            refine ⟨⟨w.heard c, ?_, ?_⟩, ⟨mux, hmux, hp⟩, proc, hproc, ?_⟩
            · show w.heard c < Function.update w.heard c (w.heard c + 1) c
              rw [Function.update_self]
              exact Nat.lt_succ_self _
            · show (sentTo c w.server.sent)[w.heard c]? = some (.newUserConn ⟨pc.name, m.ticket⟩)
              rw [hname]
              exact hmsg
            · show proc.client.Configured proc.client.found.length pc.name pc
              rw [hname]
              exact hservice
          have hnew : ∀ old ∈ w.jobs, old.ticket ≠ m.ticket := by
            intro old hold hsame
            obtain ⟨j, hj⟩ := List.getElem?_of_mem hold
            obtain ⟨k, hk, ha⟩ := (h.placed hj).announced
            rw [hsame] at ha
            -- the announcement is the one that was just handled
            obtain ⟨rfl, rfl⟩ := h.announced.once ha (show w.server.AnnouncedAt c (w.heard c) _ _
              from hmsg)
            omega
          have hadded := hbump.addJob hplaced rfl rfl hnew
          dsimp only
          split
          · refine hadded.sendTicket ?_ rfl
            exact List.getElem?_concat_length
          · exact hadded
  | _ => exact hbump

/-! ## The other steps -/

theorem Inv.launch (h : Inv w) (client : Client) (hclient : client.Remembers)
    (compression : Bool) :
    Inv { w with processes := w.processes ++ [{ client, compression }] } := by
  have hw : Grows w { w with processes := w.processes ++ [{ client, compression }] } :=
    { Grows.refl w with
      processes := fun {p proc} hproc =>
        ⟨proc, getElem?_concat_of_some hproc, rfl, Client.Polls.refl _⟩ }
  refine h.mono hw h.announced rfl (fun {p proc} hproc => ?_) (fun {p proc mux} hproc hmux => ?_)
    rfl rfl rfl
  · rcases of_getElem?_concat hproc with hproc | ⟨-, rfl⟩
    · exact h.remembers hproc
    · exact hclient
  · rcases of_getElem?_concat hproc with hproc | ⟨-, rfl⟩
    · exact h.muxSession hproc hmux
    · cases hmux

/-- A program goes on with another mux session, or with the one it has. -/
theorem Inv.setProcess (h : Inv w) {p : ProcessId} {proc : Process}
    (hproc : w.processes[p]? = some proc) {client : Client} (hclient : client.Remembers)
    (hpolls : Client.Polls proc.client client) {muxSession : Option MuxId}
    {muxes : List ProcessId}
    (hmuxes : ∀ {mux : MuxId} {p}, w.muxes[mux]? = some p → muxes[mux]? = some p)
    (hmux : ∀ mux, muxSession = some mux → muxes[mux]? = some p) :
    Inv { w with processes := w.processes.set p { proc with client, muxSession }, muxes } := by
  have hlt : p < w.processes.length := (List.getElem?_eq_some_iff.mp hproc).1
  have hset : ∀ {q : ProcessId} {proc'},
      (w.processes.set p { proc with client, muxSession })[q]? = some proc' →
      q = p ∧ proc' = { proc with client, muxSession } ∨ w.processes[q]? = some proc' := by
    intro q proc' hq
    by_cases hqp : p = q
    · subst hqp
      rw [List.getElem?_set_self hlt] at hq
      exact Or.inl ⟨rfl, (Option.some.inj hq).symm⟩
    · rw [List.getElem?_set_ne hqp] at hq
      exact Or.inr hq
  refine h.mono { Grows.refl w with muxes := hmuxes, processes := fun {q proc'} hq => ?_ }
    h.announced rfl (fun {q proc'} hq => ?_) (fun {q proc' mux} hq hm => ?_) rfl rfl rfl
  · by_cases hqp : p = q
    · subst hqp
      rw [hproc] at hq
      obtain rfl := Option.some.inj hq
      exact ⟨_, List.getElem?_set_self hlt, rfl, hpolls⟩
    · exact ⟨proc', by rw [List.getElem?_set_ne hqp, hq], rfl, Client.Polls.refl _⟩
  · rcases hset hq with ⟨-, rfl⟩ | hq
    · exact hclient
    · exact h.remembers hq
  · rcases hset hq with ⟨rfl, rfl⟩ | hq
    · exact hmux mux hm
    · exact hmuxes (h.muxSession hq hm)

theorem Inv.onClient (h : Inv w) {p : ProcessId} {proc : Process}
    (hproc : w.processes[p]? = some proc) {e : Client.Event} {client : Client}
    (hstep : proc.client.step e = some client) : Inv (w.onClient p proc client e) := by
  have hclient : client.Remembers := Client.Remembers.step (h.remembers hproc) hstep
  have hpolls := Client.polls_step hstep
  cases e with
  | connect =>
      refine h.setProcess hproc hclient hpolls getElem?_concat_of_some fun mux hmux => ?_
      rw [← Option.some.inj hmux]
      exact List.getElem?_concat_length
  | disconnect => exact h.setProcess hproc hclient hpolls id fun mux hmux => by cases hmux
  | send | loginOk | expire | poll | startMonitor | goOn =>
      exact h.setProcess hproc hclient hpolls id fun mux hmux => h.muxSession hproc hmux

theorem grows_server {s : Server} (ho : Server.Owned w.server) {e : Server.Event}
    (hstep : w.server.step e = some s) : Grows w { w with server := s } :=
  { Grows.refl w with
    announced := fun ha => ha.step ho hstep
    muxOf := fun hm => Server.muxOf_of_step ho hstep hm }

theorem Inv.server (h : Inv w) {e : Server.Event} (hmay : w.serverMay e = true)
    (hfresh : ∀ c ticket, w.server.drawnTicket e = some (c, ticket) → w.server.Fresh ticket)
    {s : Server} (hstep : w.server.step e = some s) : Inv { w with server := s } := by
  refine h.mono (grows_server h.announced.owned hstep) (h.announced.step hfresh hstep) ?_
    h.remembers h.muxSession rfl rfl rfl
  cases Server.tells_of_step hstep with
  | user _ htells => exact htells.handed
  | hands => cases hmay
  | none _ _ hhanded _ => exact hhanded

/-- What the server hands out is spliced with the work stream that was presented. -/
theorem Inv.spliced (h : Inv w) {i : WorkId} {work : WorkStream} (hi : w.works[i]? = some work)
    {s : Server} (hstep : w.server.step (.workStream work.mux work.bytes) = some s) :
    ∃ more, w.server.handed ++ more.map Prod.fst = s.handed ∧
      (w.present i work s).splices = w.splices ++ more ∧ (more.map Prod.snd).Nodup ∧
      ∀ hand k, (hand, k) ∈ more → k = i ∧ Joined (w.present i work s) hand i := by
  have hlt : i < w.works.length := (List.getElem?_eq_some_iff.mp hi).1
  cases Server.tells_of_step hstep with
  | user hdrawn => cases hdrawn
  | none _ _ hhanded _ =>
      refine ⟨[], by rw [hhanded, List.map_nil, List.append_nil], ?_, List.nodup_nil,
        fun _ _ hm => absurd hm List.not_mem_nil⟩
      rw [World.present, hhanded, List.drop_length]
      rfl
  | @hands _ _ hand hticket hflag hpending hhanded =>
      refine ⟨[(hand, i)], hhanded.symm, ?_, List.nodup_singleton _, fun hand' k hm => ?_⟩
      · rw [World.present, hhanded, List.drop_left]
        rfl
      · obtain ⟨rfl, rfl⟩ := Prod.mk.inj (List.mem_singleton.mp hm)
        obtain ⟨job, proc, hj, hopened, -, hproc, hbytes⟩ := h.works hi
        obtain ⟨k, -, ha⟩ := (h.placed hj).announced
        have hsent := mem_of_sentTo ha
        have hsame : hand'.ticket = job.ticket := by
          rw [hticket, hbytes, ticketOf_ticketBytes (h.announced.isTicket hsent)]
        rw [hsame] at hpending
        obtain ⟨hsession, hname⟩ := h.announced.pending hpending hsent
        refine ⟨rfl, { work with used := true }, job, proc, List.getElem?_set_self hlt, rfl, hj,
          hopened, hproc, hsession, hsame.symm, hname, ?_⟩
        rw [hflag, hbytes, head_ticketBytes]

/-- **The hand-over.** The ticket leads from the user to the announcement, and from there to
the job and to its work stream. -/
theorem Inv.present (h : Inv w) {i : WorkId} {work : WorkStream} (hi : w.works[i]? = some work)
    (hused : work.used = false) {s : Server}
    (hstep : w.server.step (.workStream work.mux work.bytes) = some s) :
    Inv (w.present i work s) := by
  have hannounced := h.announced.step (fun _ _ hd => by cases hd) hstep
  have hlt : i < w.works.length := (List.getElem?_eq_some_iff.mp hi).1
  have hset : ∀ {k : WorkId} {work'}, (w.works.set i { work with used := true })[k]? = some work' →
      ∃ used, w.works[k]? = some { work' with used } := by
    intro k work' hk
    by_cases hki : i = k
    · subst hki
      rw [List.getElem?_set_self hlt] at hk
      rw [← Option.some.inj hk]
      exact ⟨work.used, hi⟩
    · rw [List.getElem?_set_ne hki] at hk
      exact ⟨work'.used, hk⟩
  have hw : Grows w (w.present i work s) :=
    { grows_server h.announced.owned hstep with
      works := fun {k work'} hk => by
        by_cases hki : i = k
        · subst hki
          rw [hi] at hk
          obtain rfl := Option.some.inj hk
          exact ⟨true, List.getElem?_set_self hlt, fun _ => rfl⟩
        · exact ⟨work'.used, (List.getElem?_set_ne hki).trans hk, id⟩ }
  obtain ⟨more, hmore, hsplit, hnodup, hjoined⟩ := h.spliced hi hstep
  constructor
  case announced => exact hannounced
  case remembers => exact h.remembers
  case muxSession => exact h.muxSession
  case placed => exact fun hj => (h.placed hj).mono hw
  case staged => exact fun hj => (h.staged hj).mono hw
  case tickets => exact h.tickets
  case works =>
    intro k work' hk
    obtain ⟨used, hk⟩ := hset hk
    exact (h.works hk).mono hw rfl rfl rfl
  case handed =>
    rw [hsplit, List.map_append, ← h.handed]
    exact hmore.symm
  case joined =>
    intro hand k hm
    rw [hsplit] at hm
    rcases List.mem_append.mp hm with hm | hm
    · exact (h.joined hm).mono hw
    · obtain ⟨rfl, hj⟩ := hjoined hand k hm
      exact hj
  case once =>
    rw [hsplit, List.map_append, List.nodup_append]
    refine ⟨h.once, hnodup, fun k hk k' hk' heq => ?_⟩
    obtain ⟨⟨hand, k⟩, hm, rfl⟩ := List.mem_map.mp hk
    obtain ⟨⟨hand', k'⟩, hm', rfl⟩ := List.mem_map.mp hk'
    obtain ⟨work', job, proc, hk, hused', -⟩ := h.joined hm
    -- this work stream has not been used before
    obtain ⟨rfl, -⟩ := hjoined hand' k' hm'
    rw [show k = k' from heq, hi] at hk
    obtain rfl := Option.some.inj hk
    rw [hused] at hused'
    cases hused'

/-! ## Every run -/

/-- The server draws fresh tickets. -/
def drawsFresh (w : World) : Event → Prop
  | .server e => ∀ c ticket, w.server.drawnTicket e = some (c, ticket) → w.server.Fresh ticket
  | _ => True

theorem Inv.step (h : Inv w) {e : Event} (hfresh : drawsFresh w e) (hstep : w.step e = some w') :
    Inv w' := by
  cases e with
  | launch token name confDPath proxies compression =>
      obtain rfl := Option.some.inj hstep
      exact h.launch _ (Client.remembers_init token name confDPath proxies) compression
  | client p e =>
      simp only [World.step, Option.bind_eq_some_iff, Option.map_eq_some_iff] at hstep
      obtain ⟨proc, hproc, client, hclient, rfl⟩ := hstep
      exact h.onClient hproc hclient
  | server e =>
      simp only [World.step, Option.ite_none_right_eq_some, Option.map_eq_some_iff] at hstep
      obtain ⟨hmay, s, hs, rfl⟩ := hstep
      exact h.server hmay hfresh hs
  | hear c =>
      simp only [World.step, Option.bind_eq_some_iff, Option.map_eq_some_iff] at hstep
      obtain ⟨mux, hmux, p, hp, proc, hproc, msg, hmsg, rfl⟩ := hstep
      exact h.hear hmux hp hproc hmsg
  | dialed j ok =>
      simp only [World.step, Option.bind_eq_some_iff, Option.ite_none_right_eq_some,
        Option.some.injEq] at hstep
      obtain ⟨job, hj, hstage, rfl⟩ := hstep
      split
      · exact h.sendTicket hj ((h.staged hj).dialing hstage)
      · exact h.setStage hj (staged_over w job)
  | written j ok =>
      simp only [World.step, Option.bind_eq_some_iff] at hstep
      obtain ⟨job, hj, hstep⟩ := hstep
      split at hstep
      · rename_i i hstage
        obtain rfl := Option.some.inj hstep
        exact h.onWritten hj hstage ok
      · cases hstep
  | resolved j ok =>
      simp only [World.step, Option.bind_eq_some_iff] at hstep
      obtain ⟨job, hj, hstep⟩ := hstep
      split at hstep
      · rename_i i hstage
        obtain rfl := Option.some.inj hstep
        exact h.onResolved hj hstage ok
      · cases hstep
  | present i =>
      simp only [World.step, Option.bind_eq_some_iff, Option.ite_none_left_eq_some,
        Option.map_eq_some_iff] at hstep
      obtain ⟨work, hi, hused, s, hs, rfl⟩ := hstep
      exact h.present hi (Bool.not_eq_true _ ▸ hused) hs

/-- There is one splice for a ticket at most. -/
theorem Inv.nodup_tickets (h : Inv w) : (w.splices.map fun x => x.1.ticket).Nodup := by
  refine List.Nodup.map_on (fun x hx y hy hsame => ?_) (List.Nodup.of_map _ h.once)
  obtain ⟨work, job, -, -, -, hj, hopened, -, -, hticket, -⟩ :=
    h.joined (show (x.1, x.2) ∈ _ from hx)
  obtain ⟨work', job', -, -, -, hj', hopened', -, -, hticket', -⟩ :=
    h.joined (show (y.1, y.2) ∈ _ from hy)
  have hindex := index_unique h.tickets hj hj' (by rw [hticket, hticket', hsame])
  rw [hindex, hj'] at hj
  obtain rfl := Option.some.inj hj
  exact List.inj_on_of_nodup_map h.once hx hy (Option.some.inj (hopened.symm.trans hopened'))

/-- **Every user gets the right local connection.** As long as the server draws fresh tickets,
whatever the client programs send and whenever they reconnect: the users handed out are those
of the splices, no two splices have a ticket or a work stream in common, and a work stream
belongs to a job for just this user. The job is one of the program that the user's session
belongs to, its service is the one that was configured under the proxy's name when the program
was told of the user, static or found in `conf.d`, and it bridges its local connection with no
other work stream, with the compression that the server uses too. -/
theorem splice_agreement {token : String} {ports : List PortRange} {clients : List String}
    (h : Reach step drawsFresh (start token ports clients) w) :
    w.server.handed = w.splices.map Prod.fst ∧
    (w.splices.map fun x => x.1.ticket).Nodup ∧ (w.splices.map Prod.snd).Nodup ∧
    ∀ hand i, (hand, i) ∈ w.splices → ∃ work job proc,
      w.works[i]? = some work ∧ w.jobs[work.job]? = some job ∧
      w.processes[job.process]? = some proc ∧
      job.session = hand.owner ∧ job.ticket = hand.ticket ∧ job.pc.name = hand.proxyName ∧
      (∃ mux, w.server.muxOf hand.owner = some mux ∧ w.muxes[mux]? = some job.process) ∧
      proc.client.Configured job.polls hand.proxyName job.pc ∧
      ∀ k b, job.stage = .bridged k b → k = i ∧ b = hand.useCompression := by
  have hinv : Inv w :=
    h.invariant (inv_start token ports clients) fun _ _ _ hw hok hstep => hw.step hok hstep
  refine ⟨hinv.handed, hinv.nodup_tickets, hinv.once, fun hand i hm => ?_⟩
  obtain ⟨work, job, proc, hi, -, hj, hopened, hproc, hsession, hticket, hname, hflag⟩ :=
    hinv.joined hm
  obtain ⟨-, howner, proc', hproc', hservice⟩ := hinv.placed hj
  rw [hproc] at hproc'
  obtain rfl := Option.some.inj hproc'
  refine ⟨work, job, proc, hi, hj, hproc, hsession, hticket, hname, hsession ▸ howner,
    hname ▸ hservice, fun k b hstage => ?_⟩
  have hholds := (hinv.staged hj).holds k (by rw [hstage]; rfl)
  rw [hopened] at hholds
  obtain ⟨proc', hproc', rfl⟩ := (hinv.staged hj).flag hstage
  rw [hproc] at hproc'
  obtain rfl := Option.some.inj hproc'
  exact ⟨(Option.some.inj hholds).symm, hflag.symm⟩

/-- A client finds a proxy in `conf.d` and is told of a user of it. It reconnects before its
local connection is there, and presents the ticket on the new mux session. -/
def lateTicket : List Event :=
  [.launch "tok" "a" "conf.d" [] true, .client 0 .connect, .server (.controlStream 0),
    .server (.message 0 (.login ⟨"tok", "a"⟩) none), .hear 0, .client 0 (.loginOk "a"),
    .client 0 (.startMonitor 0 Client.firstScan), .client 0 (.goOn 0), .client 0 (.goOn 0),
    .server (.message 0 (.registerProxy ⟨"web", "tcp", 6000, [], 0⟩) none),
    .server (.acceptUser ⟨0, .tcp, 6000, "web", 0⟩ "12" 7 5 true), .hear 0, .hear 0,
    .client 0 .disconnect, .client 0 .connect, .dialed 0 true, .present 0, .written 0 true]

/-- The only ticket that is drawn is `12`, once. -/
def draws12 (w : World) : Event → Bool
  | .server e => (w.server.drawnTicket e).all fun drawn => drawn.2 == "12" &&
      !w.server.isPending "12" && !w.server.sent.any fun m => Server.announces "12" m.2
  | _ => true

theorem drawsFresh_of_draws12 {e : Event} (h : draws12 w e = true) : drawsFresh w e := by
  cases e with
  | server e =>
      intro c ticket hdrawn
      simp only [draws12, hdrawn, Option.all_some, Bool.and_eq_true, beq_iff_eq,
        Bool.not_eq_true'] at h
      obtain ⟨⟨rfl, hpending⟩, hsent⟩ := h
      refine ⟨Server.isTicket_12, fun hp => ?_, fun {d name} hm => ?_⟩
      · rw [Server.isPending_iff.mpr ⟨_, hp.isPending⟩] at hpending
        cases hpending
      · exact List.any_eq_false.mp hsent _ hm (Server.announces_iff.mpr ⟨name, rfl⟩)
  | _ => trivial

theorem splice_agreement_lateTicket :
    ∃ w : World, w.splices.map (fun x => (x.1.mux, x.1.owner, x.2)) = [(1, 0, 0)] ∧
      w.jobs.map (fun job => (job.pc, job.polls, job.stage)) =
        [(Client.webProxy, 1, .bridged 0 true)] ∧
      ∀ hand i, (hand, i) ∈ w.splices → ∃ work job proc, w.works[i]? = some work ∧
        w.jobs[work.job]? = some job ∧ w.processes[job.process]? = some proc ∧
        job.ticket = hand.ticket ∧ job.pc.name = hand.proxyName ∧
        proc.client.Configured job.polls hand.proxyName job.pc := by
  obtain ⟨w, hreach, hobs⟩ := exists_of_runGuarded step draws12 lateTicket
    (fun w => (w.splices.map fun x => (x.1.mux, x.1.owner, x.2),
      w.jobs.map fun job => (job.pc, job.polls, job.stage)))
    (s := start "tok" [] []) (a := ([(1, 0, 0)], [(Client.webProxy, 1, .bridged 0 true)]))
    (by decide +kernel)
  obtain ⟨hsplices, hjobs⟩ := Prod.mk.inj hobs
  obtain ⟨-, -, -, hall⟩ := splice_agreement (hreach.mono fun _ _ => drawsFresh_of_draws12)
  refine ⟨w, hsplices, hjobs, fun hand i hm => ?_⟩
  obtain ⟨work, job, proc, hi, hj, hproc, -, hticket, hname, -, hservice, -⟩ := hall hand i hm
  exact ⟨work, job, proc, hi, hj, hproc, hticket, hname, hservice⟩

end World

end Cfrp
