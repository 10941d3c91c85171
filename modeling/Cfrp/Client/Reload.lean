import Cfrp.Client.Conf
import Cfrp.Protocol.Codec

/-!
# Hot reload

The client tells the server which proxies to serve: the static ones at each login,
and what has changed in `conf.d` at each poll. It compares a poll with what the
last poll found, not with what the server was told.

The answer to a login and the handler of `conf_timer_` both poll, and neither runs on the
client's strand: their `SendMessage`s are posted to it, one by one, while connections come
and go, and one poll may begin before another is over. What a poll compares it looks up when
it begins. Some fields record what happened and are read by nothing: `sent`, the messages
written to the present control stream; `loggedIn`, whether its login was answered; `polled`,
whether a poll has begun since it was opened; and `found`, the files of all polls.
-/

namespace Cfrp

open Lib Protocol Conf

/-- One call that a poll makes. -/
inductive ProxyOrder where
  | register (pc : ProxyConfig)
  | unregister (name : String)
  deriving DecidableEq

/-- A callback that is part way through. -/
inductive Updater where
  /-- `RegisterProxies`, with the static proxies it has yet to register. -/
  | login (rest : List ProxyConfig)
  /-- `PollConfDirectory`, with the calls it has yet to make. -/
  | poll (rest : List ProxyOrder) (files : List File)
  deriving DecidableEq

structure Client where
  token : String
  name : String
  confDPath : String
  proxies : List ProxyConfig
  dynamicProxies : Table String ProxyConfig := ∅
  /-- The rates of `proxy_rate_limiters_`. -/
  proxyRateLimiters : Table String Int64 := ∅
  /-- `control_stream_` is set. -/
  controlStream : Bool := false
  /-- `conf_timer_` is armed. -/
  confTimer : Bool := false
  /-- How many handlers of `conf_timer_` are queued. -/
  confPolls : Nat := 0
  /-- The callbacks that are part way through. -/
  updaters : List Updater := []
  /-- The messages whose `SendMessage` is posted to the strand. -/
  posted : List Message := []
  sent : List Message := []
  loggedIn : Bool := false
  polled : Bool := false
  found : List (List File) := []

namespace Client

/-- A client before its first connection. -/
def init (token name confDPath : String) (proxies : List ProxyConfig) : Client :=
  { token := token, name := name, confDPath := confDPath, proxies := proxies }

/-! ## Messages -/

/-- `SendMessage` off the strand. -/
def postMessage (s : Client) (msg : Message) : Client := { s with posted := s.posted ++ [msg] }

/-- `SendMessage` on the strand. -/
def sendMessage (s : Client) (msg : Message) : Client :=
  if s.controlStream then { s with sent := s.sent ++ [msg] } else s

/-- What `RegisterProxy` tells the server about a proxy. -/
def registration (pc : ProxyConfig) : RegisterProxyMessage :=
  ⟨pc.name, pc.type, pc.remotePort, pc.customDomains, pc.bandwidthLimit.toInt⟩

def registerProxy (s : Client) (pc : ProxyConfig) : Client :=
  let s :=
    if pc.bandwidthLimit > 0 then
      { s with proxyRateLimiters := s.proxyRateLimiters.insert pc.name pc.bandwidthLimit }
    else s
  s.postMessage (.registerProxy (registration pc))

def unregisterProxy (s : Client) (name : String) : Client :=
  s.postMessage (.unregisterProxy ⟨name⟩)

def obey (s : Client) : ProxyOrder → Client
  | .register pc => s.registerProxy pc
  | .unregister name => s.unregisterProxy name

/-! ## Polling -/

/-- The fields the change test compares. -/
def changed (old pc : ProxyConfig) : Bool :=
  old.type != pc.type || old.localIp != pc.localIp || old.localPort != pc.localPort ||
    old.remotePort != pc.remotePort || old.customDomains != pc.customDomains

/-- A scan of the directory, with the orders in which the two hash tables of the diff
happen to be walked. -/
structure Scan where
  files : List File
  oldOrder : List ((_ : String) × ProxyConfig)
  newOrder : List ((_ : String) × ProxyConfig)

/-- The orders are orders of the tables that are walked. -/
def Scan.Fits (scan : Scan) (s : Client) : Prop :=
  scan.oldOrder.Perm s.dynamicProxies.entries ∧
    scan.newOrder.Perm (parseDirectory scan.files).entries

instance (scan : Scan) (s : Client) : Decidable (scan.Fits s) :=
  inferInstanceAs (Decidable (_ ∧ _))

/-- The first loop of the diff. -/
def removeIfGone (newProxies : Table String ProxyConfig) (e : (_ : String) × ProxyConfig) :
    List ProxyOrder :=
  match newProxies.lookup e.1 with
  | none => [.unregister e.1]
  | some _ => []

/-- The second loop of the diff. -/
def addOrUpdate (oldProxies : Table String ProxyConfig) (e : (_ : String) × ProxyConfig) :
    List ProxyOrder :=
  match oldProxies.lookup e.1 with
  | none => [.register e.2]
  | some old => if changed old e.2 then [.unregister e.1, .register e.2] else []

def diff (s : Client) (scan : Scan) : List ProxyOrder :=
  scan.oldOrder.flatMap (removeIfGone (parseDirectory scan.files)) ++
    scan.newOrder.flatMap (addOrUpdate s.dynamicProxies)

/-- `PollConfDirectory` begins: the directory is scanned. -/
def pollConfDirectory (s : Client) (scan : Scan) : Client :=
  { s with updaters := s.updaters ++ [.poll (s.diff scan) scan.files], polled := true }

/-- It ends. -/
def endPoll (s : Client) (files : List File) : Client :=
  { s with
    dynamicProxies := parseDirectory files, confTimer := true, found := s.found ++ [files] }

/-! ## The transition system -/

inductive Event where
  /-- `OnConnect`: a control stream is opened and the login is posted. -/
  | connect
  /-- `HandleDisconnect`. -/
  | disconnect
  /-- The strand runs the next `SendMessage`. -/
  | send
  /-- The server has answered the login with `ok` and a name. -/
  | loginOk (name : String)
  /-- `conf_timer_` expires: its handler is queued. -/
  | expire
  /-- A handler of `conf_timer_` begins. -/
  | poll (scan : Scan)
  /-- `RegisterProxies`, past the static proxies, begins to poll. -/
  | startMonitor (i : Nat) (scan : Scan)
  /-- A handler makes its next call, or ends. -/
  | goOn (i : Nat)

/-- `OnConnect`. -/
def onConnect (s : Client) : Client :=
  { s with controlStream := true, sent := [], loggedIn := false, polled := false }.postMessage
    (.login ⟨s.token, s.name⟩)

def handleDisconnect (s : Client) : Client :=
  { s with controlStream := false, loggedIn := false }

/-- The `LoginResp` branch of `HandleMessage`, for a login that succeeded. -/
def handleLoginResp (s : Client) (name : String) : Client :=
  { s with
    name := if name = "" then s.name else name
    loggedIn := true
    updaters := s.updaters ++ [.login s.proxies] }

/-- A handler makes its next call, or ends. -/
def goOn (s : Client) (i : Nat) : Updater → Option Client
  | .login (pc :: rest) =>
      some ({ s with updaters := s.updaters.set i (.login rest) }.registerProxy pc)
  -- with a directory the poll comes next, which is `startMonitor`
  | .login [] =>
      if s.confDPath = "" then some { s with updaters := s.updaters.eraseIdx i } else none
  | .poll (o :: rest) files =>
      some ({ s with updaters := s.updaters.set i (.poll rest files) }.obey o)
  -- only now is the memory replaced and the timer armed
  | .poll [] files => some ({ s with updaters := s.updaters.eraseIdx i }.endPoll files)

def step (s : Client) : Event → Option Client
  | .connect => some s.onConnect
  | .disconnect => some s.handleDisconnect
  | .send =>
      match s.posted with
      | [] => none
      | msg :: rest => some ({ s with posted := rest }.sendMessage msg)
  -- an answer comes on the control stream
  | .loginOk name => if s.controlStream then some (s.handleLoginResp name) else none
  | .expire =>
      if s.confTimer then some { s with confTimer := false, confPolls := s.confPolls + 1 }
      else none
  | .poll scan =>
      if s.confPolls ≠ 0 ∧ scan.Fits s then
        some ({ s with confPolls := s.confPolls - 1 }.pollConfDirectory scan)
      else none
  | .startMonitor i scan =>
      match s.updaters[i]? with
      | some (.login []) =>
          if s.confDPath ≠ "" ∧ scan.Fits s then
            some ({ s with updaters := s.updaters.eraseIdx i }.pollConfDirectory scan)
          else none
      | _ => none
  | .goOn i => (s.updaters[i]?).bind (s.goOn i)

end Client

end Cfrp
