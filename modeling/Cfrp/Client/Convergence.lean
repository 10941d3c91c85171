import Cfrp.Client.Reload
import Cfrp.Lib.Transition
import Mathlib.Data.List.Induction

/-!
# What the server has been told

Folding the messages sent on a control stream, as the server reads them, gives the table of
proxies it was told to serve on it. A poll computes its messages from `dynamic_proxies_`, so
they bring that table up to date only if it agreed with `dynamic_proxies_` before. It does
not after a reconnection, which starts an empty table and keeps the memory, and it stops
doing so when a field changes that the change test does not compare, or when two polls
overlap. `pollOk` excludes these, the messages whose strings do not fit their length
prefixes, and the use of a static proxy's name.

The invariant is about the `outlook`: what was sent, what is posted, and what the callback
under way has yet to post. Posting and sending leave it as it is.
-/

namespace Cfrp

open Lib Protocol Conf

/-- The message of a call. -/
def ProxyOrder.message : ProxyOrder → Message
  | .register pc => .registerProxy (Client.registration pc)
  | .unregister name => .unregisterProxy ⟨name⟩

/-- The calls that a callback has yet to make, without those of a poll that has not begun. -/
def Updater.orders : Updater → List ProxyOrder
  | .login rest => rest.map .register
  | .poll rest _ => rest

namespace Client

variable {s s' : Client} {n : String}

/-! ## What the server reads -/

/-- One message, as the server files it when it accepts every registration. -/
def tell (t : Table String RegisterProxyMessage) : Message → Table String RegisterProxyMessage
  | .registerProxy m =>
      match RegisterProxyMessage.deserialize m.serialize with
      | some m => t.insert m.name m
      | none => t
  | .unregisterProxy m =>
      match UnregisterProxyMessage.deserialize m.serialize with
      | some m => t.erase m.name
      | none => t
  | _ => t

/-- The proxies the server was told to serve. -/
def told (sent : List Message) : Table String RegisterProxyMessage := sent.foldl tell ∅

/-- The static proxies by name. -/
def staticTable (proxies : List ProxyConfig) : Table String ProxyConfig :=
  proxies.foldl (fun t pc => t.insert pc.name pc) ∅

/-- The registration of a proxy found under a name. -/
def registered (t : Table String ProxyConfig) (n : String) : Option RegisterProxyMessage :=
  (t.lookup n).map registration

/-- The server was told exactly the static proxies and those parsed from the files. -/
def Converged (s : Client) (files : List File) : Prop :=
  ∀ n, (told s.sent).lookup n =
    (registered (parseDirectory files) n).or (registered (staticTable s.proxies) n)

/-! ## Condition -/

instance (n : String) : Decidable (Fits n) :=
  inferInstanceAs (Decidable (IsBytes n ∧ n.length < 65536))

/-- Every length of the registration fits its prefix. -/
def short (pc : ProxyConfig) : Bool :=
  decide (Fits pc.name) && decide (Fits pc.type) &&
    (pc.customDomains.all fun d => decide (Fits d)) && decide (pc.customDomains.length < 65536)

/-- No conf.d proxy, remembered or parsed, has the name of a static one. A proxy found
again that the change test calls unchanged has the same bandwidth limit too, and it was
told on this control stream: a poll has already run on it. -/
def scanOk (s : Client) (scan : Scan) : Bool :=
  (s.proxies.all fun pc =>
    (s.dynamicProxies.lookup pc.name).isNone &&
      ((parseDirectory scan.files).lookup pc.name).isNone) &&
  (s.dynamicProxies.entries.all fun e =>
    decide (Fits e.1) &&
      ((parseDirectory scan.files).lookup e.1).all fun pc =>
        changed e.2 pc || (s.polled && e.2.bandwidthLimit == pc.bandwidthLimit)) &&
  (parseDirectory scan.files).entries.all fun e => short e.2

/-- A message that names a proxy to serve. -/
def isRegistration : Message → Bool
  | .registerProxy _ => true
  | _ => false

/-- The messages to come: those that are posted, and those of the callbacks under way. -/
def toCome (s : Client) : List Message :=
  s.posted ++ (s.updaters.flatMap Updater.orders).map ProxyOrder.message

/-- No registration is left for a later control stream. No callback begins while another is
under way, and every poll that begins while there is a control stream is `scanOk`. -/
def pollOk (s : Client) : Event → Bool
  | .connect => s.toCome.all fun msg => !isRegistration msg
  | .loginOk _ => s.updaters.isEmpty && s.proxies.all short
  | .poll scan => s.updaters.isEmpty && (!s.controlStream || scanOk s scan)
  | .startMonitor _ scan => !s.controlStream || scanOk s scan
  | _ => true

/-- There is a control session, and it is logged in. -/
def InSession (s : Client) : Prop := s.controlStream = true ∧ s.loggedIn = true

/-- The control stream is neither replaced nor closed. -/
def staysOn : Event → Bool
  | .connect | .disconnect => false
  | _ => true

/-! ## Messages -/

theorem wellFormed_of_short {pc : ProxyConfig} (h : short pc = true) :
    RegisterProxyMessage.WellFormed (registration pc) := by
  simp only [short, Bool.and_eq_true, decide_eq_true_eq, List.all_eq_true] at h
  obtain ⟨⟨⟨hname, htype⟩, hdomains⟩, hcount⟩ := h
  exact ⟨hname, htype, hdomains, hcount, pc.bandwidthLimit.le_toInt, pc.bandwidthLimit.toInt_lt⟩

theorem tell_register {pc : ProxyConfig} (h : short pc = true)
    (t : Table String RegisterProxyMessage) :
    tell t (ProxyOrder.register pc).message = t.insert pc.name (registration pc) := by
  have hread : RegisterProxyMessage.deserialize (registration pc).serialize =
      some (registration pc) :=
    (RegisterProxyMessage.canonical_read.decode_write _).mpr (wellFormed_of_short h)
  simp only [ProxyOrder.message, tell, hread]
  rfl

theorem tell_unregister (h : Fits n) (t : Table String RegisterProxyMessage) :
    tell t (ProxyOrder.unregister n).message = t.erase n := by
  have hread : UnregisterProxyMessage.deserialize (UnregisterProxyMessage.mk n).serialize =
      some ⟨n⟩ := (UnregisterProxyMessage.canonical_read.decode_write _).mpr h
  simp only [ProxyOrder.message, tell, hread]

/-- The table after the messages of some calls. -/
def heed (t : Table String RegisterProxyMessage) (orders : List ProxyOrder) :
    Table String RegisterProxyMessage :=
  (orders.map ProxyOrder.message).foldl tell t

theorem heed_append (t : Table String RegisterProxyMessage) (orders orders' : List ProxyOrder) :
    heed t (orders ++ orders') = heed (heed t orders) orders' := by
  rw [heed, List.map_append, List.foldl_append]
  rfl

/-- Where nothing was registered, nothing is unregistered. -/
theorem told_of_noRegistration {msgs : List Message}
    (h : ∀ msg ∈ msgs, isRegistration msg = false) : (told msgs).lookup n = none := by
  induction msgs using List.reverseRecOn with
  | nil => simp [told]
  | append_singleton msgs msg ih =>
      have hbefore := ih fun m hm => h m (List.mem_append_left _ hm)
      have hlast := h msg (List.mem_append_right _ (List.mem_singleton_self msg))
      rw [told, List.foldl_concat]
      cases msg with
      | registerProxy m => cases hlast
      | unregisterProxy m =>
          rw [tell]
          split
          · rw [Table.lookup_erase_if]
            split
            · rfl
            · exact hbefore
          · exact hbefore
      | login | loginResp | registerProxyResp | newUserConn | other | malformed => exact hbefore

/-! ## The two loops of the diff -/

theorem heed_removeIfGone {newProxies : Table String ProxyConfig}
    {e : (_ : String) × ProxyConfig} (hfits : Fits e.1) (t : Table String RegisterProxyMessage)
    (n : String) :
    (heed t (removeIfGone newProxies e)).lookup n =
      if n = e.1 ∧ newProxies.lookup n = none then none else t.lookup n := by
  unfold removeIfGone
  split
  · rename_i hnone
    have hone : heed t [.unregister e.1] = t.erase e.1 := tell_unregister hfits t
    rw [hone, Table.lookup_erase_if]
    by_cases hn : n = e.1
    · rw [if_pos hn, if_pos ⟨hn, hn ▸ hnone⟩]
    · rw [if_neg hn, if_neg fun h => hn h.1]
  · rename_i pc hsome
    rw [if_neg]
    · rfl
    rintro ⟨hn, hnone⟩
    rw [hn, hsome] at hnone
    exact absurd hnone (by simp)

/-- The first loop unregisters the names that were walked and are gone. -/
theorem heed_removeLoop (newProxies : Table String ProxyConfig) (n : String) :
    ∀ (order : List ((_ : String) × ProxyConfig)) (t : Table String RegisterProxyMessage),
      (∀ e ∈ order, Fits e.1) →
      (heed t (order.flatMap (removeIfGone newProxies))).lookup n =
        if n ∈ order.map Sigma.fst ∧ newProxies.lookup n = none then none else t.lookup n := by
  intro order
  induction order with
  | nil => intro t _; simp [heed]
  | cons e order ih =>
      intro t hfits
      rw [List.flatMap_cons, heed_append, ih _ fun e he => hfits e (List.mem_cons_of_mem _ he),
        heed_removeIfGone (hfits e List.mem_cons_self)]
      simp only [List.map_cons, List.mem_cons]
      by_cases hgone : newProxies.lookup n = none
      · by_cases hmem : n ∈ order.map Sigma.fst
        · rw [if_pos ⟨hmem, hgone⟩, if_pos ⟨Or.inr hmem, hgone⟩]
        · rw [if_neg fun h => hmem h.1]
          by_cases he : n = e.1
          · rw [if_pos ⟨he, hgone⟩, if_pos ⟨Or.inl he, hgone⟩]
          · rw [if_neg fun h => he h.1, if_neg fun h => h.1.elim he hmem]
      · rw [if_neg fun h => hgone h.2, if_neg fun h => hgone h.2, if_neg fun h => hgone h.2]

/-- A proxy of the new table is registered by the second loop. -/
def isSent (oldProxies : Table String ProxyConfig) (e : (_ : String) × ProxyConfig) : Bool :=
  (oldProxies.lookup e.1).all fun old => changed old e.2

/-- An entry of the table of a poll: it is filed under its name, and its message is short. -/
structure Listed (e : (_ : String) × ProxyConfig) : Prop where
  name : e.2.name = e.1
  short : short e.2 = true

theorem Listed.fits {e : (_ : String) × ProxyConfig} (h : Listed e) : Fits e.1 := by
  rw [← h.name]
  exact (wellFormed_of_short h.short).name

theorem heed_addOrUpdate (oldProxies : Table String ProxyConfig)
    {e : (_ : String) × ProxyConfig} (he : Listed e) (t : Table String RegisterProxyMessage)
    (n : String) :
    (heed t (addOrUpdate oldProxies e)).lookup n =
      if n = e.1 ∧ isSent oldProxies e = true then some (registration e.2) else t.lookup n := by
  have hone (t) : heed t [.register e.2] = t.insert e.2.name (registration e.2) :=
    tell_register he.short t
  unfold addOrUpdate isSent
  cases hold : oldProxies.lookup e.1 with
  | none =>
      simp only [Option.all_none, and_true]
      rw [hone, Table.lookup_insert_if, he.name]
  | some old =>
      simp only [Option.all_some]
      by_cases hchanged : changed old e.2 = true
      · have htwo : heed t [.unregister e.1, .register e.2] =
            heed (t.erase e.1) [.register e.2] :=
          congrArg (heed · [.register e.2]) (tell_unregister he.fits t)
        rw [if_pos hchanged, htwo, hone, Table.lookup_insert_if, he.name, Table.lookup_erase_if]
        by_cases hn : n = e.1
        · rw [if_pos hn, if_pos ⟨hn, hchanged⟩]
        · rw [if_neg hn, if_neg hn, if_neg fun h => hn h.1]
      · rw [if_neg hchanged, if_neg fun h => hchanged h.2]
        rfl

/-- The second loop says nothing of names it does not walk over. -/
theorem heed_addLoop_of_notMem (oldProxies : Table String ProxyConfig) :
    ∀ (order : List ((_ : String) × ProxyConfig)) (t : Table String RegisterProxyMessage),
      (∀ e ∈ order, Listed e) → n ∉ order.map Sigma.fst →
      (heed t (order.flatMap (addOrUpdate oldProxies))).lookup n = t.lookup n := by
  intro order
  induction order with
  | nil => intro t _ _; rfl
  | cons e order ih =>
      intro t hlisted hn
      rw [List.map_cons, List.mem_cons, not_or] at hn
      rw [List.flatMap_cons, heed_append,
        ih _ (fun e he => hlisted e (List.mem_cons_of_mem _ he)) hn.2,
        heed_addOrUpdate oldProxies (hlisted e List.mem_cons_self), if_neg fun h => hn.1 h.1]

/-- The second loop registers what is new or changed. -/
theorem heed_addLoop_of_mem (oldProxies : Table String ProxyConfig)
    {e : (_ : String) × ProxyConfig} :
    ∀ (order : List ((_ : String) × ProxyConfig)) (t : Table String RegisterProxyMessage),
      (∀ e ∈ order, Listed e) → (order.map Sigma.fst).Nodup → e ∈ order →
      (heed t (order.flatMap (addOrUpdate oldProxies))).lookup e.1 =
        if isSent oldProxies e = true then some (registration e.2) else t.lookup e.1 := by
  intro order
  induction order with
  | nil => intro t _ _ he; exact absurd he (by simp)
  | cons k order ih =>
      intro t hlisted hnodup he
      have hlisted' : ∀ e ∈ order, Listed e :=
        fun e he => hlisted e (List.mem_cons_of_mem _ he)
      rw [List.map_cons, List.nodup_cons] at hnodup
      have hk := heed_addOrUpdate oldProxies (hlisted k List.mem_cons_self) t
      rw [List.flatMap_cons, heed_append]
      rcases List.mem_cons.mp he with rfl | he
      · rw [heed_addLoop_of_notMem oldProxies order _ hlisted' hnodup.1, hk]
        simp
      · have hne : e.1 ≠ k.1 := fun h => hnodup.1 (h ▸ List.mem_map_of_mem he)
        rw [ih _ hlisted' hnodup.2 he, hk]
        simp only [hne, false_and, if_false]

/-- **What a poll tells the server.** The names it no longer finds are unregistered, the
new and changed ones are registered, and nothing is said of the others. -/
theorem heed_diff {scan : Scan} (hfits : scan.Fits s)
    (hold : ∀ e ∈ s.dynamicProxies.entries, Fits e.1)
    (hnew : ∀ e ∈ (parseDirectory scan.files).entries, short e.2 = true)
    (t : Table String RegisterProxyMessage) (n : String) :
    (heed t (s.diff scan)).lookup n =
      match (parseDirectory scan.files).lookup n with
      | none => if n ∈ s.dynamicProxies then none else t.lookup n
      | some pc =>
          if isSent s.dynamicProxies ⟨n, pc⟩ = true then some (registration pc)
          else t.lookup n := by
  have hremove := heed_removeLoop (parseDirectory scan.files) n scan.oldOrder t fun e he =>
    hold e (hfits.1.mem_iff.mp he)
  have hmem : n ∈ scan.oldOrder.map Sigma.fst ↔ n ∈ s.dynamicProxies :=
    (hfits.1.map Sigma.fst).mem_iff
  have hlisted : ∀ e ∈ scan.newOrder, Listed e := fun e he =>
    ⟨parseDirectory_name (Table.lookup_eq_some_iff.mpr (hfits.2.mem_iff.mp he)),
      hnew e (hfits.2.mem_iff.mp he)⟩
  have hnodup : (scan.newOrder.map Sigma.fst).Nodup :=
    (hfits.2.map Sigma.fst).nodup_iff.mpr (parseDirectory scan.files).nodupKeys
  rw [diff, heed_append]
  cases hpc : (parseDirectory scan.files).lookup n with
  | none =>
      have hnot : n ∉ scan.newOrder.map Sigma.fst := by
        rw [(hfits.2.map Sigma.fst).mem_iff]
        exact AList.lookup_eq_none.mp hpc
      rw [heed_addLoop_of_notMem _ _ _ hlisted hnot, hremove]
      by_cases hmemory : n ∈ s.dynamicProxies
      · rw [if_pos ⟨hmem.mpr hmemory, hpc⟩, if_pos hmemory]
      · rw [if_neg fun h => hmemory (hmem.mp h.1), if_neg hmemory]
  | some pc =>
      have hin : (⟨n, pc⟩ : (_ : String) × ProxyConfig) ∈ scan.newOrder :=
        hfits.2.mem_iff.mpr (Table.lookup_eq_some_iff.mp hpc)
      have hadd := heed_addLoop_of_mem s.dynamicProxies scan.newOrder
        (heed t (scan.oldOrder.flatMap (removeIfGone (parseDirectory scan.files)))) hlisted hnodup
        hin
      simp only at hadd
      rw [hadd, hremove, if_neg (c := n ∈ _ ∧ _) fun h => absurd h.2 (by simp [hpc])]

/-- The loop of `RegisterProxies`. -/
theorem heed_registerLoop (t : Table String RegisterProxyMessage) (n : String)
    {proxies : List ProxyConfig} (hshort : ∀ pc ∈ proxies, short pc = true) :
    (heed t (proxies.map .register)).lookup n =
      (registered (staticTable proxies) n).or (t.lookup n) := by
  induction proxies using List.reverseRecOn with
  | nil => simp [heed, registered, staticTable]
  | append_singleton proxies pc ih =>
      have hlast : short pc = true := hshort pc (by simp)
      have hbefore := ih fun pc hpc => hshort pc (List.mem_append_left _ hpc)
      have htable : staticTable (proxies ++ [pc]) =
          (staticTable proxies).insert pc.name pc := List.foldl_concat ..
      have hone (t) : heed t [.register pc] = t.insert pc.name (registration pc) :=
        tell_register hlast t
      rw [List.map_append, heed_append, List.map_singleton, hone, Table.lookup_insert_if,
        registered, htable, Table.lookup_insert_if]
      by_cases hn : n = pc.name
      · simp [hn]
      · simp only [hn, if_false]
        exact hbefore

/-! ## What is to come -/

/-- What will have been sent when the callbacks under way and the strand are done, if the
control stream stays. -/
def outlook (s : Client) : List Message := s.sent ++ s.toCome

theorem told_outlook_append (s : Client) (orders : List ProxyOrder) :
    told (s.outlook ++ orders.map ProxyOrder.message) = heed (told s.outlook) orders :=
  List.foldl_append ..

/-- What the memory will be when the poll under way is done. -/
def memory (s : Client) : Table String ProxyConfig :=
  match s.updaters with
  | [.poll _ files] => parseDirectory files
  | _ => s.dynamicProxies

/-- What the server will have been told of one name, as far as this control stream is
concerned. -/
def expected (s : Client) (n : String) : Option RegisterProxyMessage :=
  (if s.polled then registered s.memory n else none).or
    (if s.loggedIn then registered (staticTable s.proxies) n else none)

structure ReloadInv (s : Client) : Prop where
  /-- Every remembered proxy is filed under its own name. -/
  names : ∀ {n pc}, s.dynamicProxies.lookup n = some pc → pc.name = n
  one : s.updaters.length ≤ 1
  /-- On a control stream, the server will be told what this client thinks it was told. -/
  told : s.controlStream = true → ∀ n, (told s.outlook).lookup n = s.expected n
  /-- What was polled on this control stream has no static proxy's name. -/
  disjoint : s.controlStream = true → s.polled = true → ∀ pc ∈ s.proxies,
    s.memory.lookup pc.name = none
  /-- A poll under way in a session began in it. -/
  begun : s.loggedIn = true → ∀ rest files, .poll rest files ∈ s.updaters → s.polled = true

theorem reloadInv_init (token name confDPath : String) (proxies : List ProxyConfig) :
    ReloadInv (init token name confDPath proxies) :=
  ⟨fun h => absurd h (by simp [init]), Nat.zero_le 1, fun h => absurd h (by simp [init]),
    fun h => absurd h (by simp [init]), fun h => absurd h (by simp [init])⟩

/-- The callback under way is the only one. -/
theorem eq_of_getElem? {updaters : List Updater} (hone : updaters.length ≤ 1) {i : Nat}
    {u : Updater} (h : updaters[i]? = some u) : i = 0 ∧ updaters = [u] := by
  obtain ⟨hlt, hu⟩ := List.getElem?_eq_some_iff.mp h
  match updaters, hone with
  | [v], _ =>
      have hi : i = 0 := by simpa using hlt
      subst hi
      exact ⟨rfl, congrArg (fun u => [u]) hu⟩

/-- A step that leaves the outlook and the memory to come alone. -/
theorem ReloadInv.keep (h : ReloadInv s)
    (hnames : ∀ {n pc}, s'.dynamicProxies.lookup n = some pc → pc.name = n)
    (hone : s'.updaters.length ≤ 1) (hmemory : s'.memory = s.memory)
    (hpolls : ∀ rest files, .poll rest files ∈ s'.updaters →
      ∃ rest', .poll rest' files ∈ s.updaters)
    (houtlook : s.controlStream = true → s'.outlook = s.outlook)
    (hstream : s'.controlStream = s.controlStream) (hpolled : s'.polled = s.polled)
    (hlogin : s'.loggedIn = s.loggedIn) (hproxies : s'.proxies = s.proxies) : ReloadInv s' := by
  refine ⟨hnames, hone, fun hc n => ?_, fun hc hp => ?_, fun hl rest files hmem => ?_⟩
  · rw [hstream] at hc
    rw [houtlook hc, h.told hc n, expected, expected, hmemory, hpolled, hlogin, hproxies]
  · rw [hstream] at hc
    rw [hpolled] at hp
    rw [hproxies, hmemory]
    exact h.disjoint hc hp
  · rw [hlogin] at hl
    obtain ⟨rest', hmem⟩ := hpolls rest files hmem
    rw [hpolled]
    exact h.begun hl rest' files hmem

/-! ## Posting and sending -/

theorem obey_eq (s : Client) (o : ProxyOrder) :
    ∃ rl, s.obey o = { s with proxyRateLimiters := rl, posted := s.posted ++ [o.message] } := by
  cases o with
  | register pc =>
      rw [obey, registerProxy]
      split
      · exact ⟨_, rfl⟩
      · exact ⟨_, rfl⟩
  | unregister name => exact ⟨_, rfl⟩

/-- The strand runs a `SendMessage`. -/
theorem ReloadInv.send (h : ReloadInv s) {msg : Message} {rest : List Message}
    (hposted : s.posted = msg :: rest) : ReloadInv ({ s with posted := rest }.sendMessage msg) := by
  unfold sendMessage
  split
  · refine h.keep h.names h.one rfl (fun rest files hmem => ⟨rest, hmem⟩) (fun _ => ?_) rfl rfl rfl
      rfl
    simp [outlook, toCome, hposted]
  · rename_i hc
    exact h.keep h.names h.one rfl (fun rest files hmem => ⟨rest, hmem⟩)
      (fun hc' => absurd hc' hc) rfl rfl rfl rfl

/-- A callback makes a call. -/
inductive Calls : Updater → ProxyOrder → Updater → Prop where
  | login (pc : ProxyConfig) (rest : List ProxyConfig) :
      Calls (.login (pc :: rest)) (.register pc) (.login rest)
  | poll (o : ProxyOrder) (rest : List ProxyOrder) (files : List File) :
      Calls (.poll (o :: rest) files) o (.poll rest files)

/-- The callback under way makes its next call. -/
theorem ReloadInv.post (h : ReloadInv s) {u v : Updater} {o : ProxyOrder}
    (hu : s.updaters = [u]) (hcalls : Calls u o v) :
    ReloadInv ({ s with updaters := [v] }.obey o) := by
  obtain ⟨rl, heq⟩ := obey_eq { s with updaters := [v] } o
  rw [heq]
  cases hcalls with
  | login pc rest =>
      refine h.keep h.names (Nat.le_refl 1) ?_ (fun _ _ hmem => ?_) (fun _ => ?_) rfl rfl rfl rfl
      · rw [memory, memory, hu]
      · cases List.mem_singleton.mp hmem
      · simp [outlook, toCome, hu, Updater.orders]
  | poll o rest files =>
      refine h.keep h.names (Nat.le_refl 1) ?_ (fun rest' files' hmem => ?_) (fun _ => ?_) rfl rfl
        rfl rfl
      · rw [memory, memory, hu]
      · cases List.mem_singleton.mp hmem
        exact ⟨o :: rest, by rw [hu]; exact List.mem_singleton_self _⟩
      · simp [outlook, toCome, hu, Updater.orders]

/-! ## One poll -/

/-- Equal in the fields the change test compares, and in the bandwidth limit. -/
theorem registration_of_unchanged {old pc : ProxyConfig} (hname : old.name = pc.name)
    (hsame : changed old pc = false) (hbw : old.bandwidthLimit = pc.bandwidthLimit) :
    registration old = registration pc := by
  simp only [changed, Bool.or_eq_false_iff, bne_eq_false_iff_eq] at hsame
  obtain ⟨⟨⟨⟨htype, _⟩, _⟩, hport⟩, hdomains⟩ := hsame
  unfold registration
  rw [hname, htype, hport, hdomains, hbw]

theorem lookup_staticTable_none {proxies : List ProxyConfig}
    (h : ∀ pc ∈ proxies, pc.name ≠ n) : (staticTable proxies).lookup n = none := by
  have hfold : ∀ (proxies : List ProxyConfig) (t : Table String ProxyConfig),
      (∀ pc ∈ proxies, pc.name ≠ n) → t.lookup n = none →
      (proxies.foldl (fun t pc => t.insert pc.name pc) t).lookup n = none := by
    intro proxies
    induction proxies with
    | nil => exact fun t _ ht => ht
    | cons pc proxies ih =>
        intro t hne ht
        refine ih _ (fun pc hpc => hne pc (List.mem_cons_of_mem _ hpc)) ?_
        rw [Table.lookup_insert_if, if_neg fun h => hne pc List.mem_cons_self h.symm]
        exact ht
  exact hfold proxies ∅ h (by simp)

/-- What `scanOk` says. -/
structure ScanOk (s : Client) (scan : Scan) : Prop where
  statics : ∀ pc ∈ s.proxies, s.dynamicProxies.lookup pc.name = none ∧
    (parseDirectory scan.files).lookup pc.name = none
  again : ∀ n old pc, s.dynamicProxies.lookup n = some old →
    (parseDirectory scan.files).lookup n = some pc → changed old pc = false →
    s.polled = true ∧ old.bandwidthLimit = pc.bandwidthLimit
  old : ∀ e ∈ s.dynamicProxies.entries, Fits e.1
  new : ∀ e ∈ (parseDirectory scan.files).entries, short e.2 = true

theorem scanOk_spec {scan : Scan} (h : scanOk s scan = true) : ScanOk s scan := by
  rw [scanOk, Bool.and_eq_true, Bool.and_eq_true, List.all_eq_true, List.all_eq_true,
    List.all_eq_true] at h
  obtain ⟨⟨hstatic, hagain⟩, hnew⟩ := h
  refine ⟨fun pc hpc => by simpa using hstatic pc hpc, ?_, fun e he => ?_, hnew⟩
  · intro n old pc hold hpc hsame
    have hentry := hagain _ (Table.lookup_eq_some_iff.mp hold)
    simp only [hpc, Option.all_some, hsame, Bool.false_or, Bool.and_eq_true, beq_iff_eq] at hentry
    exact hentry.2
  · have hentry := hagain e he
    rw [Bool.and_eq_true, decide_eq_true_eq] at hentry
    exact hentry.1

/-- `PollConfDirectory` begins, and no other callback is under way. -/
theorem ReloadInv.poll (h : ReloadInv s) (hidle : s.updaters = []) {scan : Scan}
    (hfits : scan.Fits s) (hok : s.controlStream = true → scanOk s scan = true) :
    ReloadInv (s.pollConfDirectory scan) := by
  have houtlook : (s.pollConfDirectory scan).outlook =
      s.outlook ++ (s.diff scan).map ProxyOrder.message := by
    simp [outlook, toCome, pollConfDirectory, hidle, Updater.orders]
  have hmemory : (s.pollConfDirectory scan).memory = parseDirectory scan.files := by
    simp [memory, pollConfDirectory, hidle]
  have hbefore : s.memory = s.dynamicProxies := by rw [memory, hidle]
  refine ⟨h.names, ?_, fun hc n => ?_, fun hc _ pc hpc => ?_, fun _ _ _ _ => rfl⟩
  · rw [pollConfDirectory, hidle]
    exact Nat.le_refl 1
  · obtain ⟨hstatic, hagain, hold, hnew⟩ := scanOk_spec (hok hc)
    have hs : (Client.told s.outlook).lookup n = s.expected n := h.told hc n
    have hafter : (s.pollConfDirectory scan).expected n =
        (registered (parseDirectory scan.files) n).or
          (if s.loggedIn then registered (staticTable s.proxies) n else none) := by
      rw [expected, hmemory]
      rfl
    rw [houtlook, told_outlook_append, heed_diff hfits hold hnew, hafter, registered]
    cases hpc : (parseDirectory scan.files).lookup n with
    | none =>
        simp only [Option.map_none, Option.none_or]
        split
        · -- it was polled before and is gone: no static proxy has its name
          rename_i hmem
          have hnone : (staticTable s.proxies).lookup n = none := by
            refine lookup_staticTable_none fun pc hpc hname => ?_
            exact AList.lookup_eq_none.mp (hstatic pc hpc).1 (hname ▸ hmem)
          rw [registered, hnone]
          simp
        · rename_i hmem
          rw [hs, expected, hbefore]
          simp [registered, AList.lookup_eq_none.mpr hmem]
    | some pc =>
        simp only [Option.map_some, Option.some_or]
        split
        · rfl
        · -- found again and called unchanged: the server knows it from an earlier poll
          rename_i hunsent
          simp only [isSent, Bool.not_eq_true, Option.all_eq_false] at hunsent
          obtain ⟨old, hlookup, hsame⟩ := hunsent
          have hsame : changed old pc = false := by simpa using hsame
          obtain ⟨hpolled, hbw⟩ := hagain n old pc hlookup hpc hsame
          have hname : old.name = pc.name :=
            (h.names hlookup).trans (parseDirectory_name hpc).symm
          rw [hs, expected, hbefore, if_pos hpolled, registered, hlookup, Option.map_some,
            registration_of_unchanged hname hsame hbw, Option.some_or]
  · rw [hmemory]
    exact ((scanOk_spec (hok hc)).statics pc hpc).2

/-- `PollConfDirectory` ends. -/
theorem ReloadInv.endPoll (h : ReloadInv s) {files : List File}
    (hu : s.updaters = [.poll [] files]) : ReloadInv ({ s with updaters := [] }.endPoll files) := by
  refine h.keep parseDirectory_name (Nat.zero_le 1) ?_ (fun _ _ hmem => by cases hmem)
    (fun _ => ?_) rfl rfl rfl rfl
  · rw [memory, memory, hu]
    rfl
  · simp [outlook, toCome, hu, Client.endPoll, Updater.orders]

/-! ## One login -/

theorem ReloadInv.login (h : ReloadInv s) (hidle : s.updaters = [])
    (hshort : ∀ pc ∈ s.proxies, short pc = true) (name : String) :
    ReloadInv (s.handleLoginResp name) := by
  have houtlook : (s.handleLoginResp name).outlook =
      s.outlook ++ (s.proxies.map .register).map ProxyOrder.message := by
    simp [outlook, toCome, handleLoginResp, hidle, Updater.orders]
  have hmemory : (s.handleLoginResp name).memory = s.memory := by
    simp [memory, handleLoginResp, hidle]
  refine ⟨h.names, ?_, fun hc n => ?_, fun hc hp => ?_, fun _ rest files hmem => ?_⟩
  · rw [handleLoginResp, hidle]
    exact Nat.le_refl 1
  · have hafter : (s.handleLoginResp name).expected n =
        (if s.polled then registered s.memory n else none).or
          (registered (staticTable s.proxies) n) := by
      rw [expected, hmemory]
      rfl
    rw [houtlook, told_outlook_append, heed_registerLoop _ n hshort, h.told hc n, expected, hafter]
    cases hstatic : registered (staticTable s.proxies) n with
    | none => cases s.loggedIn <;> simp
    | some m =>
        -- a static name is not the name of anything polled on this control stream
        have hnone : (if s.polled = true then registered s.memory n else none) = none := by
          split
          · rename_i hp
            by_contra hne
            obtain ⟨m', hm'⟩ := Option.ne_none_iff_exists'.mp hne
            obtain ⟨pc, hpc, _⟩ := Option.map_eq_some_iff.mp hm'
            have hnot : (staticTable s.proxies).lookup n = none := by
              refine lookup_staticTable_none fun qc hqc hname => ?_
              rw [← hname, h.disjoint hc hp qc hqc] at hpc
              exact absurd hpc (by simp)
            rw [registered, hnot] at hstatic
            exact absurd hstatic (by simp)
          · rfl
        rw [hnone]
        simp
  · rw [hmemory]
    exact h.disjoint hc hp
  · rw [handleLoginResp, hidle] at hmem
    simp at hmem

/-! ## Every run -/

theorem ReloadInv.goOn (h : ReloadInv s) {i : Nat} {u : Updater} (hu : s.updaters[i]? = some u)
    (hs : s.goOn i u = some s') : ReloadInv s' := by
  obtain ⟨rfl, hupdaters⟩ := eq_of_getElem? h.one hu
  cases u with
  | login rest =>
      cases rest with
      | nil =>
          obtain ⟨-, hs⟩ := Option.ite_none_right_eq_some.mp hs
          cases hs
          rw [hupdaters]
          refine h.keep h.names (Nat.zero_le 1) ?_ (fun _ _ hmem => by cases hmem) (fun _ => ?_) rfl
            rfl rfl rfl
          · rw [memory, memory, hupdaters]
            rfl
          · simp [outlook, toCome, hupdaters, Updater.orders]
      | cons pc rest =>
          cases hs
          rw [hupdaters]
          exact h.post hupdaters (.login pc rest)
  | poll rest files =>
      cases rest with
      | nil =>
          cases hs
          rw [hupdaters]
          exact h.endPoll hupdaters
      | cons o rest =>
          cases hs
          rw [hupdaters]
          exact h.post hupdaters (.poll o rest files)

/-- A control stream is opened. -/
theorem ReloadInv.connect (h : ReloadInv s)
    (hnone : ∀ msg ∈ s.toCome, isRegistration msg = false) : ReloadInv s.onConnect := by
  have houtlook : ∀ msg ∈ s.onConnect.outlook, isRegistration msg = false := by
    intro msg hmsg
    simp only [onConnect, postMessage, outlook, toCome, List.nil_append, List.append_assoc,
      List.mem_append, List.mem_singleton] at hmsg
    rcases hmsg with hmsg | rfl | hmsg
    · exact hnone msg (List.mem_append_left _ hmsg)
    · rfl
    · exact hnone msg (List.mem_append_right _ hmsg)
  exact ⟨h.names, h.one, fun _ n => told_of_noRegistration houtlook,
    fun _ hpolled => (by cases hpolled), fun hlogin => (by cases hlogin)⟩

theorem ReloadInv.disconnect (h : ReloadInv s) : ReloadInv s.handleDisconnect :=
  ⟨h.names, h.one, fun hstream => (by cases hstream), fun hstream => (by cases hstream),
    fun hlogin => (by cases hlogin)⟩

/-- `RegisterProxies` begins to poll. -/
theorem ReloadInv.startMonitor (h : ReloadInv s) {i : Nat}
    (hu : s.updaters[i]? = some (.login [])) {scan : Scan} (hfits : scan.Fits s)
    (hscan : s.controlStream = true → scanOk s scan = true) :
    ReloadInv ({ s with updaters := s.updaters.eraseIdx i }.pollConfDirectory scan) := by
  obtain ⟨rfl, hupdaters⟩ := eq_of_getElem? h.one hu
  have hidle : ReloadInv { s with updaters := s.updaters.eraseIdx 0 } := by
    rw [hupdaters]
    refine h.keep h.names (Nat.zero_le 1) ?_ (fun _ _ hmem => by cases hmem) (fun _ => ?_) rfl
      rfl rfl rfl
    · rw [memory, memory, hupdaters]
      rfl
    · simp [outlook, toCome, hupdaters, Updater.orders]
  exact hidle.poll (by rw [hupdaters]; rfl) hfits hscan

theorem reloadInv_step (h : ReloadInv s) {e : Event} (hok : pollOk s e = true)
    (hs : s.step e = some s') : ReloadInv s' := by
  cases e with
  | connect =>
      cases hs
      rw [pollOk, List.all_eq_true] at hok
      exact h.connect fun msg hmsg => by simpa using hok msg hmsg
  | disconnect =>
      cases hs
      exact h.disconnect
  | send =>
      cases hposted : s.posted with
      | nil =>
          rw [step, hposted] at hs
          cases hs
      | cons msg rest =>
          rw [step, hposted] at hs
          cases hs
          exact h.send hposted
  | loginOk name =>
      obtain ⟨-, hs⟩ := Option.ite_none_right_eq_some.mp hs
      cases hs
      rw [pollOk, Bool.and_eq_true, List.isEmpty_iff, List.all_eq_true] at hok
      exact h.login hok.1 hok.2 name
  | expire =>
      obtain ⟨-, hs⟩ := Option.ite_none_right_eq_some.mp hs
      cases hs
      exact h.keep h.names h.one rfl (fun rest files hmem => ⟨rest, hmem⟩) (fun _ => rfl) rfl rfl
        rfl rfl
  | poll scan =>
      obtain ⟨⟨-, hfits⟩, hs⟩ := Option.ite_none_right_eq_some.mp hs
      cases hs
      rw [pollOk, Bool.and_eq_true, List.isEmpty_iff] at hok
      have hqueue : ReloadInv { s with confPolls := s.confPolls - 1 } :=
        h.keep h.names h.one rfl (fun rest files hmem => ⟨rest, hmem⟩) (fun _ => rfl) rfl rfl rfl
          rfl
      refine hqueue.poll hok.1 hfits fun hc => ?_
      have hc : s.controlStream = true := hc
      have hscan := hok.2
      rw [hc] at hscan
      exact hscan
  | startMonitor i scan =>
      rw [step] at hs
      split at hs
      · rename_i hu
        obtain ⟨⟨-, hfits⟩, hs⟩ := Option.ite_none_right_eq_some.mp hs
        cases hs
        refine h.startMonitor hu hfits fun hc => ?_
        rw [pollOk, hc] at hok
        exact hok
      · cases hs
  | goOn i =>
      obtain ⟨u, hu, hs⟩ := Option.bind_eq_some_iff.mp hs
      exact h.goOn hu hs

/-- While the control stream stays, what was sent and what is posted only grow at their ends. -/
structure Onward (s s' : Client) : Prop where
  controlStream : s'.controlStream = true
  proxies : s'.proxies = s.proxies
  written : s.sent ++ s.posted <+: s'.sent ++ s'.posted

theorem onward_obey (h : s.controlStream = true) (o : ProxyOrder) : Onward s (s.obey o) := by
  obtain ⟨rl, heq⟩ := obey_eq s o
  rw [heq]
  exact ⟨h, rfl, by rw [← List.append_assoc]; exact List.prefix_append _ _⟩

theorem onward_step (h : s.controlStream = true) {e : Event} (he : staysOn e = true)
    (hs : s.step e = some s') : Onward s s' := by
  have hsame : s.sent ++ s.posted <+: s.sent ++ s.posted := List.prefix_refl _
  cases e with
  | connect => cases he
  | disconnect => cases he
  | send =>
      cases hposted : s.posted with
      | nil =>
          rw [step, hposted] at hs
          cases hs
      | cons msg rest =>
          rw [step, hposted] at hs
          cases hs
          rw [sendMessage, if_pos h]
          refine ⟨h, rfl, ?_⟩
          show s.sent ++ s.posted <+: s.sent ++ [msg] ++ rest
          rw [hposted, List.append_assoc]
          exact List.prefix_refl _
  | loginOk name =>
      obtain ⟨-, hs⟩ := Option.ite_none_right_eq_some.mp hs
      cases hs
      exact ⟨h, rfl, hsame⟩
  | expire =>
      obtain ⟨-, hs⟩ := Option.ite_none_right_eq_some.mp hs
      cases hs
      exact ⟨h, rfl, hsame⟩
  | poll scan =>
      obtain ⟨-, hs⟩ := Option.ite_none_right_eq_some.mp hs
      cases hs
      exact ⟨h, rfl, hsame⟩
  | startMonitor i scan =>
      rw [step] at hs
      split at hs
      · obtain ⟨-, hs⟩ := Option.ite_none_right_eq_some.mp hs
        cases hs
        exact ⟨h, rfl, hsame⟩
      · cases hs
  | goOn i =>
      obtain ⟨u, -, hs⟩ := Option.bind_eq_some_iff.mp hs
      match u, hs with
      | .login [], hs =>
          obtain ⟨-, hs⟩ := Option.ite_none_right_eq_some.mp hs
          cases hs
          exact ⟨h, rfl, hsame⟩
      | .login (pc :: rest), hs =>
          cases hs
          obtain ⟨hstream, hproxies, hwritten⟩ := onward_obey (s := { s with
            updaters := s.updaters.set i (.login rest) }) h (.register pc)
          exact ⟨hstream, hproxies, hwritten⟩
      | .poll [] files, hs =>
          cases hs
          exact ⟨h, rfl, hsame⟩
      | .poll (o :: rest) files, hs =>
          cases hs
          obtain ⟨hstream, hproxies, hwritten⟩ := onward_obey (s := { s with
            updaters := s.updaters.set i (.poll rest files) }) h o
          exact ⟨hstream, hproxies, hwritten⟩

theorem onward_of_reach (h : s.controlStream = true)
    (hrun : Reach step (fun _ e => staysOn e = true) s s') : Onward s s' := by
  refine hrun.invariant ⟨h, rfl, List.prefix_refl _⟩ fun s₁ e s₂ h₁ he hs => ?_
  have hstep := onward_step h₁.controlStream he hs
  exact ⟨hstep.controlStream, hstep.proxies.trans h₁.proxies, h₁.written.trans hstep.written⟩

/-- The strand gets through what is posted. -/
theorem reach_drained (h : s.controlStream = true) : ∃ s',
    Reach step (fun _ e => staysOn e = true) s s' ∧
      s'.sent.length = (s.sent ++ s.posted).length := by
  generalize hposted : s.posted = posted
  induction posted generalizing s with
  | nil => exact ⟨s, Reach.init, by rw [List.append_nil]⟩
  | cons msg rest ih =>
      have hs : s.step .send = some { s with posted := rest, sent := s.sent ++ [msg] } := by
        rw [step, hposted]
        show some (sendMessage _ _) = _
        rw [sendMessage, if_pos (show ({ s with posted := rest } : Client).controlStream = true
          from h)]
      obtain ⟨s', hrun, hlength⟩ :=
        ih (s := { s with posted := rest, sent := s.sent ++ [msg] }) h rfl
      have h₀ : Reach step (fun _ e => staysOn e = true) s s := Reach.init
      refine ⟨s', (h₀.next .send rfl hs).trans hrun, ?_⟩
      rw [hlength]
      simp

/-- **Hot reload converges.** In a run that is `pollOk` throughout, when a poll ends in a
session that is logged in, then as soon as what it has posted is sent, whatever else happens
meanwhile, the server was told exactly the static proxies and those the poll parsed. -/
theorem reload_converges {token name confDPath : String} {proxies : List ProxyConfig}
    {s : Client}
    (h : Reach step (fun s e => pollOk s e = true) (init token name confDPath proxies) s)
    {i : Nat} {files : List File} (hpoll : s.updaters[i]? = some (.poll [] files)) {s' : Client}
    (hstep : s.step (.goOn i) = some s') (hsession : InSession s') :
    (∃ s'', Reach step (fun _ e => staysOn e = true) s' s'' ∧
      s''.sent.length = (s'.sent ++ s'.posted).length) ∧
    ∀ s'', Reach step (fun _ e => staysOn e = true) s' s'' →
      s''.sent.length = (s'.sent ++ s'.posted).length → Converged s'' files := by
  have hinv : ReloadInv s :=
    h.invariant (reloadInv_init token name confDPath proxies)
      fun _ _ _ hs hok hstep => reloadInv_step hs hok hstep
  have hinv' : ReloadInv s' := reloadInv_step hinv rfl hstep
  obtain ⟨hstream, hlogin⟩ := hsession
  refine ⟨reach_drained hstream, fun s'' hrun hlength n => ?_⟩
  -- what was sent is what had been sent and posted
  obtain ⟨-, hproxies, hwritten⟩ := onward_of_reach hstream hrun
  have hsent : s''.sent = s'.sent ++ s'.posted :=
    (List.prefix_of_prefix_length_le (List.prefix_append _ _) hwritten
      (Nat.le_of_eq hlength)).eq_of_length hlength
  have htold := hinv'.told hstream n
  obtain ⟨rfl, hupdaters⟩ := eq_of_getElem? hinv.one hpoll
  have hend : s' = { s with updaters := [] }.endPoll files := by
    rw [step, hpoll] at hstep
    cases hstep
    rw [hupdaters]
    rfl
  subst hend
  have hl : s.loggedIn = true := hlogin
  have hpolled : s.polled = true :=
    hinv.begun hl [] files (by rw [hupdaters]; exact List.mem_singleton_self _)
  have houtlook : ({ s with updaters := [] }.endPoll files).outlook = s.sent ++ s.posted := by
    simp [outlook, toCome, endPoll]
  have hexpected : ({ s with updaters := [] }.endPoll files).expected n =
      (registered (parseDirectory files) n).or (registered (staticTable s.proxies) n) := by
    simp [expected, memory, endPoll, hl, hpolled]
  rw [houtlook, hexpected] at htold
  rw [hsent, hproxies]
  exact htold

/-- One file, defining the proxy `web`. -/
def webFile : File := ⟨"web", some { localPort := some 80, remotePort := some 6000 }⟩

def webProxy : ProxyConfig := ⟨"web", "tcp", "127.0.0.1", 80, 6000, [], 0⟩

/-- The first scan finds the file, and a later one finds it again. -/
def firstScan : Scan := ⟨[webFile], [], [⟨"web", webProxy⟩]⟩

def secondScan : Scan := ⟨[webFile], [⟨"web", webProxy⟩], [⟨"web", webProxy⟩]⟩

/-- A login and its poll, which finds `web`. -/
theorem reload_converges_firstLogin :
    ∃ s : Client, s.sent = [.login ⟨"tok", "a"⟩, .registerProxy ⟨"web", "tcp", 6000, [], 0⟩] ∧
      Converged s [webFile] := by
  obtain ⟨s, hreach, hobs⟩ := exists_of_runGuarded step pollOk
    [.connect, .send, .loginOk "a", .startMonitor 0 firstScan, .goOn 0]
    (fun s => (s.updaters[0]?, (s.step (.goOn 0)).bind fun s' => (s'.step .send).map fun s'' =>
      ((s'.controlStream, s'.loggedIn), s'.sent ++ s'.posted, s''.sent)))
    (s := init "tok" "a" "conf.d" [])
    (a := (some (.poll [] [webFile]), some ((true, true),
      [.login ⟨"tok", "a"⟩, .registerProxy ⟨"web", "tcp", 6000, [], 0⟩],
      [.login ⟨"tok", "a"⟩, .registerProxy ⟨"web", "tcp", 6000, [], 0⟩])))
    (by decide +kernel)
  rw [Prod.mk.injEq] at hobs
  obtain ⟨hpoll, hend⟩ := hobs
  obtain ⟨s', hs', hsend⟩ := Option.bind_eq_some_iff.mp hend
  obtain ⟨s'', hs'', hobs⟩ := Option.map_eq_some_iff.mp hsend
  simp only [Prod.mk.injEq] at hobs
  obtain ⟨⟨hstream, hlogin⟩, hmessages, hall⟩ := hobs
  have h₀ : Reach step (fun _ e => staysOn e = true) s' s' := Reach.init
  refine ⟨s'', hall, (reload_converges hreach hpoll hs' ⟨hstream, hlogin⟩).2 s''
    (h₀.next .send rfl hs'') ?_⟩
  rw [hall, hmessages]

/-- After a reconnection the poll finds nothing new, and the server is told nothing. -/
theorem reload_diverges_reconnect :
    ¬ ∀ (token name confDPath : String) (proxies : List ProxyConfig) (s s' s'' : Client) (i : Nat)
      (files : List File), Reach step anyStep (init token name confDPath proxies) s →
      s.updaters[i]? = some (.poll [] files) → s.step (.goOn i) = some s' → InSession s' →
      Reach step (fun _ e => staysOn e = true) s' s'' →
      s''.sent.length = (s'.sent ++ s'.posted).length → Converged s'' files := by
  intro hall
  obtain ⟨s, hreach, hobs⟩ := exists_of_runAll step
    [.connect, .send, .loginOk "a", .startMonitor 0 firstScan, .goOn 0, .goOn 0, .send,
      .disconnect, .connect, .send, .loginOk "a", .startMonitor 0 secondScan]
    (fun s => (s.updaters[0]?, (s.step (.goOn 0)).map fun s' =>
      ((s'.controlStream, s'.loggedIn), s'.sent, s'.posted)))
    (s := init "tok" "a" "conf.d" [])
    (a := (some (.poll [] [webFile]), some ((true, true), [.login ⟨"tok", "a"⟩], [])))
    (by decide +kernel)
  rw [Prod.mk.injEq] at hobs
  obtain ⟨hpoll, hend⟩ := hobs
  obtain ⟨s', hs', hobs⟩ := Option.map_eq_some_iff.mp hend
  simp only [Prod.mk.injEq] at hobs
  obtain ⟨⟨hstream, hlogin⟩, hsent, hposted⟩ := hobs
  have hnone : (told s'.sent).lookup "web" = none := by
    rw [hsent]
    decide
  have hsome : registered (parseDirectory [webFile]) "web" =
      some ⟨"web", "tcp", 6000, [], 0⟩ := by decide
  have hweb := hall _ _ _ _ s s' s' 0 _ hreach hpoll hs' ⟨hstream, hlogin⟩ Reach.init
    (by rw [hposted, List.append_nil]) "web"
  rw [hnone, hsome] at hweb
  exact absurd hweb (by simp)

end Client

end Cfrp
