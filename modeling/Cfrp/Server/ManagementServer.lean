import Cfrp.Lib.Lines
import Cfrp.Server.Management
import Cfrp.Websocket.Handshake

/-!
# The management server

One request of HTTP on each connection. `HandleRequest` reads until it has seen an empty line,
takes the path from the first line and the last `Authorization` field from the others, and
writes one response. `Base64Encode` is that of the WebSocket handshake.

What the interface is for is said with `Request` and `Answer`, and `readResponse` is a client
that keeps to `Content-Length`.
-/

namespace Cfrp

open Lib
open Protocol (bytesOf)
open Websocket (Crypto headEnd head)

structure ManagementServer where
  /-- The Base64 of `username:password`, or nothing. -/
  expectedAuth : List Byte := []

/-- What the server has to report of. -/
structure Info where
  version : List Byte
  /-- The values of `sessions_`, in the order of the loops. -/
  sessions : List (Option (ControlSession × Peer))
  counters : ListenerId → Counters

def Info.clients (info : Info) : List ClientInfo := getClientsInfo info.sessions info.counters

def Info.totalStats (info : Info) : TrafficStats := getTotalStats info.sessions info.counters

structure Response where
  statusCode : Nat
  statusText : List Byte
  extraHeaders : List Byte := []
  body : List Byte

namespace ManagementServer

def setCredentials (c : Crypto) (username password : List Byte) : ManagementServer where
  expectedAuth :=
    if username ≠ [] ∨ password ≠ [] then
      c.base64Encode (username ++ bytesOf ":" ++ password)
    else []

def getStatusJson (info : Info) : List Byte :=
  bytesOf "\x7b" ++
    bytesOf "\"version\": \"" ++ info.version ++ bytesOf "\"," ++
    bytesOf "\"status\": \"running\"," ++
    bytesOf "\"total_bytes_sent\": " ++ bytesOf (toString info.totalStats.bytesSent.toNat) ++
      bytesOf "," ++
    bytesOf "\"total_bytes_received\": " ++
      bytesOf (toString info.totalStats.bytesReceived.toNat) ++
    bytesOf "\x7d"

def response (r : Response) : List Byte :=
  bytesOf "HTTP/1.1 " ++ bytesOf (toString r.statusCode) ++ bytesOf " " ++ r.statusText ++ crlf ++
    bytesOf "Content-Type: " ++ bytesOf "application/json" ++ crlf ++
    bytesOf "Content-Length: " ++ bytesOf (toString r.body.length) ++ crlf ++
    bytesOf "Access-Control-Allow-Origin: *" ++ crlf ++
    r.extraHeaders ++
    bytesOf "Connection: close" ++ crlf ++
    crlf ++
    r.body

/-- `std::isspace`. -/
def isSpace (b : Byte) : Bool := b = 0x20 || (0x09 ≤ b && b ≤ 0x0D)

/-- `>>` into a string: a word, and what is behind it. -/
def word (s : List Byte) : List Byte × List Byte :=
  let s := s.dropWhile isSpace
  (s.takeWhile (!isSpace ·), s.dropWhile (!isSpace ·))

def pathOf (line : List Byte) : List Byte := (word (word line).2).1

def authorization : List Byte := bytesOf "Authorization: "
def basic : List Byte := bytesOf "Basic "

def statusPath : List Byte := bytesOf "/api/v1/status"
def clientsPath : List Byte := bytesOf "/api/v1/clients"

/-- The handler of the read, with what is in the buffer. -/
def respond (m : ManagementServer) (info : Info) (buffer : List Byte) : Option (List Byte) := do
  let line ← (lines buffer).head?
  let path := pathOf line
  let authHeader := lastField authorization (fields buffer)
  let authorized := m.expectedAuth = [] ∨ authHeader = basic ++ m.expectedAuth
  some (response (
    if ¬authorized then
      { statusCode := 401
        statusText := bytesOf "Unauthorized"
        extraHeaders := bytesOf "WWW-Authenticate: Basic realm=\"cfrp management\"" ++ crlf
        body := bytesOf "\x7b\"error\": \"Unauthorized\"\x7d" }
    else if path = statusPath then
      { statusCode := 200, statusText := bytesOf "OK", body := getStatusJson info }
    else if path = clientsPath then
      { statusCode := 200, statusText := bytesOf "OK", body := getClientsJson info.clients }
    else
      { statusCode := 404
        statusText := bytesOf "Not Found"
        body := bytesOf "\x7b\"error\": \"Not Found\"\x7d" }))

/-- `async_read_until`: the buffer when it has an empty line, read by read. -/
def asyncReadUntil (buffer : List Byte) : List (List Byte) → Option (List Byte)
  | [] => none
  | data :: reads =>
      if (find headEnd (buffer ++ data)).isSome then some (buffer ++ data)
      else asyncReadUntil (buffer ++ data) reads

/-- `HandleRequest`: what it writes. -/
def handleRequest (m : ManagementServer) (info : Info) (reads : List (List Byte)) :
    Option (List Byte) :=
  (asyncReadUntil [] reads).bind (m.respond info)

/-! ## What the interface is for -/

structure Request where
  method : List Byte
  path : List Byte
  version : List Byte
  fields : List (List Byte)

def Request.lines (r : Request) : List (List Byte) :=
  (r.method ++ 0x20 :: (r.path ++ 0x20 :: r.version)) :: r.fields

def IsWord (w : List Byte) : Prop := w ≠ [] ∧ ∀ b ∈ w, isSpace b = false

structure Request.Ok (r : Request) : Prop where
  method : IsWord r.method
  path : IsWord r.path
  version : IsWord r.version
  fields : ∀ l ∈ r.fields, IsLine l

/-- What the last `Authorization` field says. -/
def Request.credentials (r : Request) : List Byte :=
  r.fields.foldl (fun found l =>
    if authorization <+: l then l.drop authorization.length else found) []

inductive Answer where
  | unauthorized
  | status
  | clients
  | notFound
  deriving DecidableEq

def answer (m : ManagementServer) (path credentials : List Byte) : Answer :=
  if m.expectedAuth ≠ [] ∧ credentials ≠ basic ++ m.expectedAuth then .unauthorized
  else if path = statusPath then .status
  else if path = clientsPath then .clients
  else .notFound

namespace Answer

def code : Answer → Nat
  | .unauthorized => 401
  | .status | .clients => 200
  | .notFound => 404

def statusText : Answer → List Byte
  | .unauthorized => bytesOf "Unauthorized"
  | .status | .clients => bytesOf "OK"
  | .notFound => bytesOf "Not Found"

def body (info : Info) : Answer → List Byte
  | .unauthorized => bytesOf "\x7b\"error\": \"Unauthorized\"\x7d"
  | .status => getStatusJson info
  | .clients => getClientsJson info.clients
  | .notFound => bytesOf "\x7b\"error\": \"Not Found\"\x7d"

/-- The lines that `extra_headers` holds. -/
def extraLines : Answer → List (List Byte)
  | .unauthorized => [bytesOf "WWW-Authenticate: Basic realm=\"cfrp management\""]
  | _ => []

def toResponse (info : Info) (a : Answer) : Response where
  statusCode := a.code
  statusText := a.statusText
  extraHeaders := a.extraLines.flatMap (· ++ crlf)
  body := a.body info

end Answer

def contentLength : List Byte := bytesOf "Content-Length: "

/-- A client reads the head, and as many bytes behind it as the head says. -/
def readResponse (s : List Byte) : Option (Nat × List Byte × List Byte) := do
  let h ← head s
  let line ← (lines h).head?
  let length := Json.ofDigits (lastField contentLength (fields h))
  let body := s.drop h.length
  if length ≤ body.length then
    some (Json.ofDigits (pathOf line), body.take length, body.drop length)
  else none

/-! ## Words and heads -/

theorem word_append {w rest : List Byte} (hw : IsWord w) (hrest : ∀ b ∈ rest.head?, isSpace b) :
    word (w ++ rest) = (w, rest) := by
  obtain ⟨hne, hword⟩ := hw
  have hall : ∀ b ∈ w, (!isSpace b) = true := fun b hb => by rw [hword b hb]; rfl
  have hdrop : (w ++ rest).dropWhile isSpace = w ++ rest := by
    obtain ⟨b, w, rfl⟩ := List.exists_cons_of_ne_nil hne
    exact List.dropWhile_cons_of_neg (by rw [hword b List.mem_cons_self]; exact Bool.false_ne_true)
  rw [word, hdrop, List.takeWhile_append_of_pos hall, List.dropWhile_append_of_pos hall]
  cases rest with
  | nil => rw [List.takeWhile_nil, List.append_nil, List.dropWhile_nil]
  | cons b rest =>
      have hb : ¬(!isSpace b) = true := by rw [hrest b rfl]; exact Bool.false_ne_true
      rw [List.takeWhile_cons_of_neg (p := (!isSpace ·)) hb,
        List.dropWhile_cons_of_neg (p := (!isSpace ·)) hb, List.append_nil]

theorem word_space (s : List Byte) : word (0x20 :: s) = word s := rfl

/-- The path is the second word of the line. -/
theorem pathOf_line {first path rest : List Byte} (hfirst : IsWord first) (hpath : IsWord path)
    (hrest : ∀ b ∈ rest.head?, isSpace b) :
    pathOf (first ++ 0x20 :: (path ++ rest)) = path := by
  have hspace : ∀ b ∈ (0x20 :: (path ++ rest)).head?, isSpace b := fun b hb => by cases hb; rfl
  rw [pathOf, word_append hfirst hspace, word_space, word_append hpath hrest]

/-- A head ends with an empty line, and the bytes begin with it. -/
theorem head_split {s h : List Byte} (hh : head s = some h) :
    ∃ p rest, h = p ++ (crlf ++ crlf) ∧ s = h ++ rest := by
  obtain ⟨hfind, hfour, hle, -⟩ := Websocket.head_eq_some hh
  obtain ⟨rest, hrest⟩ := ((find_eq_some_iff Websocket.headEnd_ne_nil).mp hfind).1
  have hsplit : s.take (h.length - 4) ++ headEnd ++ rest = s := by
    rw [List.append_assoc, hrest, List.take_append_drop]
  have hlen : (s.take (h.length - 4) ++ headEnd).length = h.length := by
    rw [List.length_append, List.length_take_of_le (by omega)]
    show h.length - 4 + 4 = h.length
    omega
  rw [← hsplit] at hh
  have hself := Websocket.eq_head_of_length hh hlen
  exact ⟨_, rest, hself.symm, hself ▸ hsplit.symm⟩

/-- What the server looks at is in the head. -/
theorem lines_of_head {s h : List Byte} (hh : head s = some h) :
    (lines s).head? = (lines h).head? ∧ fields s = fields h := by
  obtain ⟨p, rest, rfl, rfl⟩ := head_split hh
  have hself : p ++ (crlf ++ crlf) = p ++ (crlf ++ crlf) ++ [] := (List.append_nil _).symm
  refine ⟨?_, ?_⟩
  · conv_rhs => rw [hself]
    rw [head?_lines_head, head?_lines_head]
  · conv_rhs => rw [hself]
    rw [fields_head, fields_head]

theorem head_of_found {got rest h : List Byte} (hh : head (got ++ rest) = some h)
    (hfound : (find headEnd got).isSome = true) : head got = some h := by
  have hle := (Websocket.find_headEnd_of_head hh).mp hfound
  obtain ⟨hfind, hfour, -, htake⟩ := Websocket.head_eq_some hh
  have hgot : find headEnd got = some (h.length - 4) := by
    have hpart := find_take Websocket.headEnd_ne_nil (got ++ rest) got.length
    rw [List.take_left, hfind, Option.filter_some, if_pos] at hpart
    · exact hpart
    · have hlen : headEnd.length = 4 := rfl
      rw [decide_eq_true_iff, hlen]
      omega
  rw [head, hgot, Option.map_some, Nat.sub_add_cancel hfour]
  rw [List.take_append_of_le_length hle] at htake
  exact congrArg some htake.symm

/-- **However the request is cut**, the read returns with its head. -/
theorem asyncReadUntil_of_head {h : List Byte} :
    ∀ (reads : List (List Byte)) (buffer : List Byte), find headEnd buffer = none →
    head (buffer ++ reads.flatten) = some h →
    ∃ got, asyncReadUntil buffer reads = some got ∧ head got = some h
  | [], buffer, hnone, hh => by
      rw [List.flatten_nil, List.append_nil, head, hnone] at hh
      cases hh
  | data :: reads, buffer, hnone, hh => by
      rw [List.flatten_cons, ← List.append_assoc] at hh
      rw [asyncReadUntil]
      split
      · rename_i hfound
        exact ⟨_, rfl, head_of_found hh hfound⟩
      · rename_i hnot
        exact asyncReadUntil_of_head reads _ (Option.not_isSome_iff_eq_none.mp hnot) hh

/-! ## The response -/

theorem respond_eq (m : ManagementServer) (info : Info) {buffer line : List Byte}
    (hline : (lines buffer).head? = some line) : m.respond info buffer = some (response
      ((m.answer (pathOf line) (lastField authorization (fields buffer))).toResponse info)) := by
  rw [respond, hline]
  simp only [Option.bind_eq_bind, Option.bind_some, answer]
  by_cases hauth : m.expectedAuth = [] ∨ lastField authorization (fields buffer) =
      basic ++ m.expectedAuth
  · have hgranted : ¬(m.expectedAuth ≠ [] ∧
        lastField authorization (fields buffer) ≠ basic ++ m.expectedAuth) := by tauto
    rw [if_neg (not_not.mpr hauth), if_neg hgranted]
    split
    · rfl
    · split
      · rfl
      · rfl
  · have hdenied : m.expectedAuth ≠ [] ∧
        lastField authorization (fields buffer) ≠ basic ++ m.expectedAuth := by tauto
    rw [if_pos hauth, if_pos hdenied]
    rfl

/-- A head that is put together is the head of what begins with it. -/
theorem head_headOf {ls : List (List Byte)} (hne : ls ≠ []) (h : ∀ l ∈ ls, IsLine l)
    (rest : List Byte) : head (headOf ls ++ rest) = some (headOf ls) := by
  have hfind : find headEnd (headOf ls ++ rest) = some ((headOf ls).length - 4) :=
    find_headOf hne h rest
  rw [head, hfind, Option.map_some, Nat.sub_add_cancel (le_length_headOf hne), List.take_left]

namespace Answer

def statusLine (a : Answer) : List Byte :=
  bytesOf "HTTP/1.1 " ++ bytesOf (toString a.code) ++ bytesOf " " ++ a.statusText

def fieldLines (info : Info) (a : Answer) : List (List Byte) :=
  [bytesOf "Content-Type: application/json",
    contentLength ++ bytesOf (toString (a.body info).length),
    bytesOf "Access-Control-Allow-Origin: *"] ++ a.extraLines ++ [bytesOf "Connection: close"]

theorem response_eq (info : Info) (a : Answer) : response (a.toResponse info) =
    headOf (a.statusLine :: a.fieldLines info) ++ a.body info := by
  have htype : bytesOf "Content-Type: application/json" =
      bytesOf "Content-Type: " ++ bytesOf "application/json" := by decide +kernel
  simp only [response, toResponse, statusLine, fieldLines, headOf, List.flatMap_cons,
    List.flatMap_append, List.flatMap_nil, htype, contentLength, List.append_assoc,
    List.append_nil]

theorem isLine_of_mem (info : Info) (a : Answer) :
    ∀ l ∈ a.statusLine :: a.fieldLines info, IsLine l := by
  have hdigits : ∀ b ∈ bytesOf (toString (a.body info).length), Json.isDigit b = true := by
    rw [bytesOf_toString_nat]
    exact fun b => Json.isDigit_of_mem_decimal
  have hlength : IsLine (contentLength ++ bytesOf (toString (a.body info).length)) :=
    IsLine.append (by decide) (fun h => absurd (hdigits _ h) (by decide))
      fun h => absurd (hdigits _ h) (by decide)
  have hfirst : IsLine a.statusLine := by
    cases a <;> decide +kernel
  have hextra : ∀ l ∈ a.extraLines, IsLine l := by
    cases a <;> decide +kernel
  intro l hl
  simp only [fieldLines, List.cons_append, List.nil_append, List.mem_cons, List.mem_append,
    List.not_mem_nil, or_false] at hl
  rcases hl with rfl | rfl | rfl | rfl | hl | rfl
  · exact hfirst
  · decide +kernel
  · exact hlength
  · decide +kernel
  · exact hextra l hl
  · decide +kernel

/-- The field with the length is found. -/
theorem contentLength_fieldLines (info : Info) (a : Answer) :
    lastField contentLength ((a.fieldLines info).map (· ++ [0x0D])) =
      bytesOf (toString (a.body info).length) := by
  have hbefore : ¬contentLength <+: bytesOf "Content-Type: application/json" := by decide +kernel
  have hself : contentLength <+: contentLength ++ bytesOf (toString (a.body info).length) :=
    List.prefix_append _ _
  have hbehind : ∀ l ∈ bytesOf "Access-Control-Allow-Origin: *" :: (a.extraLines ++
      [bytesOf "Connection: close"]), ¬contentLength <+: l := by
    cases a <;> decide +kernel
  have hkeep : ∀ (ls : List (List Byte)) (found : List Byte), (∀ l ∈ ls, ¬contentLength <+: l) →
      ls.foldl (fun found l => if contentLength <+: l then l.drop contentLength.length else found)
        found = found := by
    intro ls
    induction ls with
    | nil => exact fun _ _ => rfl
    | cons l ls ih =>
        intro found h
        rw [List.foldl_cons, if_neg (h l List.mem_cons_self)]
        exact ih found fun m hm => h m (List.mem_cons_of_mem _ hm)
  -- no field behind the length is taken for one
  have hall := hkeep _ (bytesOf (toString (a.body info).length)) hbehind
  rw [lastField_map (by decide), fieldLines]
  simp only [List.cons_append, List.nil_append, List.foldl_cons, if_neg hbefore, if_pos hself,
    List.drop_left] at hall ⊢
  exact hall

/-- **A response is read as it was meant**, whatever it reports. -/
theorem readResponse_response (info : Info) (a : Answer) (later : List Byte) :
    readResponse (response (a.toResponse info) ++ later) =
      some (a.code, a.body info, later) := by
  have hlines := lines_headOf (a.isLine_of_mem info) []
  have hfields := fields_headOf (a.isLine_of_mem info) []
  rw [List.append_nil] at hlines hfields
  have hcode : Json.ofDigits (pathOf (a.statusLine ++ [0x0D])) = a.code := by
    cases a <;> decide +kernel
  have hlength := a.contentLength_fieldLines info
  have hroom : (a.body info).length ≤ (a.body info ++ later).length :=
    (List.prefix_append _ _).length_le
  rw [readResponse, response_eq, List.append_assoc,
    head_headOf (List.cons_ne_nil _ _) (a.isLine_of_mem info)]
  simp only [Option.bind_eq_bind, Option.bind_some, hlines, hfields, hlength, List.map_cons,
    List.cons_append, List.head?_cons, hcode, bytesOf_toString_nat, Json.ofDigits_decimal,
    List.drop_left, if_pos hroom, List.take_left]

end Answer

/-! ## Every request -/

theorem dropReturn_mem {line : List Byte} {b : Byte} (h : b ∈ dropReturn line) : b ∈ line := by
  rw [dropReturn] at h
  split at h
  · exact List.mem_of_mem_dropLast h
  · exact h

theorem newline_notMem_lines : ∀ {s l : List Byte}, l ∈ lines s → 0x0A ∉ l
  | [], l, h => by cases h
  | b :: s, l, h => by
      rw [lines] at h
      split at h
      · rcases List.mem_cons.mp h with rfl | h
        · exact List.not_mem_nil
        · exact newline_notMem_lines h
      · rename_i hb
        split at h
        · obtain rfl := List.mem_singleton.mp h
          exact fun hm => hb (List.mem_singleton.mp hm).symm
        · rename_i m ms hms
          rcases List.mem_cons.mp h with rfl | h
          · have hm := newline_notMem_lines (s := s) (l := m) (hms ▸ List.mem_cons_self)
            exact fun hin => (List.mem_cons.mp hin).elim (fun heq => hb heq.symm) hm
          · exact newline_notMem_lines (hms ▸ List.mem_cons_of_mem _ h)

/-- A field has no newline. -/
theorem newline_notMem_lastField (name s : List Byte) : 0x0A ∉ lastField name (fields s) := by
  have hlines : ∀ l ∈ fields s, 0x0A ∉ l := fun l hl =>
    newline_notMem_lines (List.mem_of_mem_tail ((List.takeWhile_prefix _).subset hl))
  rw [lastField]
  -- induction on the fields that were read, of which the last one counts
  refine List.foldlRecOn (motive := fun found => 0x0A ∉ found) (fields s) _ List.not_mem_nil
    fun found hfound l hl => ?_
  split
  · exact fun hm => hlines l hl (List.mem_of_mem_drop (dropReturn_mem hm))
  · exact hfound

theorem isLine_request {r : Request} (hr : r.Ok) : ∀ l ∈ r.lines, IsLine l := by
  have hword : ∀ {w : List Byte}, IsWord w → ∀ {b : Byte}, isSpace b = true → b ∉ w :=
    fun hw _ hb hm => by
      rw [hw.2 _ hm] at hb
      cases hb
  have hfirst : ∀ b : Byte, isSpace b = true → b ≠ 0x20 →
      b ∉ r.method ++ 0x20 :: (r.path ++ 0x20 :: r.version) := by
    intro b hb hne
    simp only [List.mem_append, List.mem_cons, not_or]
    exact ⟨hword hr.method hb, hne, hword hr.path hb, hne, hword hr.version hb⟩
  intro l hl
  rcases List.mem_cons.mp hl with rfl | hl
  · exact ⟨List.append_ne_nil_of_left_ne_nil hr.method.1 _, hfirst _ rfl (by decide),
      hfirst _ rfl (by decide)⟩
  · exact hr.fields l hl

/-- **What a request asks for** is what the server takes from its head. -/
theorem request_read {r : Request} (hr : r.Ok) :
    pathOf ((lines (headOf r.lines)).head?.getD []) = r.path ∧
    lastField authorization (fields (headOf r.lines)) = r.credentials := by
  have hlines := lines_headOf (isLine_request hr) []
  have hfields := fields_headOf (isLine_request hr) []
  rw [List.append_nil] at hlines hfields
  refine ⟨?_, ?_⟩
  -- the first line: a method, a path and a version
  · have hspace : ∀ b ∈ (0x20 :: (r.version ++ [0x0D])).head?, isSpace b := fun b hb => by
      cases hb
      rfl
    have hshape : r.method ++ 0x20 :: (r.path ++ 0x20 :: r.version) ++ [0x0D] =
        r.method ++ 0x20 :: (r.path ++ 0x20 :: (r.version ++ [0x0D])) := by
      rw [List.append_assoc, List.cons_append, List.append_assoc, List.cons_append]
    rw [hlines]
    exact (congrArg pathOf hshape).trans (pathOf_line hr.method hr.path hspace)
  · rw [Request.lines, hfields, lastField_map (by decide)]
    rfl

theorem answer_unauthorized_iff (m : ManagementServer) (path credentials : List Byte) :
    m.answer path credentials = .unauthorized ↔
      m.expectedAuth ≠ [] ∧ credentials ≠ basic ++ m.expectedAuth := by
  rw [answer]
  split
  · rename_i hdenied
    exact iff_of_true rfl hdenied
  · rename_i hgranted
    refine iff_of_false ?_ hgranted
    split
    · exact Answer.noConfusion
    · split
      · exact Answer.noConfusion
      · exact Answer.noConfusion

/-- The first line of a head is all the server reads of it before the fields. -/
theorem handleRequest_of_head (m : ManagementServer) {h : List Byte} (info : Info)
    {reads : List (List Byte)} (hh : head reads.flatten = some h) :
    m.handleRequest info reads = some (response
      ((m.answer (pathOf ((lines h).head?.getD [])) (lastField authorization (fields h))).toResponse
        info)) := by
  obtain ⟨got, hgot, hhead⟩ := asyncReadUntil_of_head reads [] rfl hh
  obtain ⟨hfirst, hfields⟩ := lines_of_head hhead
  obtain ⟨p, -, hp, -⟩ := head_split hh
  have hne : h ≠ [] := hp ▸ List.append_ne_nil_of_right_ne_nil _ (by decide)
  obtain ⟨line, rest, heq⟩ := List.exists_cons_of_ne_nil (lines_ne_nil hne)
  have hline : (lines h).head? = some line := by rw [heq, List.head?_cons]
  rw [handleRequest, hgot, Option.bind_some, ← hfields, hline, Option.getD_some]
  exact m.respond_eq info (hfirst.trans hline)

/-- **The management interface.** A head has one answer. Whatever bytes begin with it, however
they are cut and whatever comes behind it, the server writes that answer as one response, which
a client reads as it was meant. A request without the right credentials learns nothing about the
server. A request that is put together in the usual way is answered according to its path and
its last `Authorization` field. The list of the clients is the document that it is meant to be
just if no client, stream or proxy has a name that needs an escape. Credentials whose Base64
takes more than one line let nobody in. -/
theorem management_answers (m : ManagementServer) (h : List Byte) : ∃ a : Answer,
      (∀ info reads, head reads.flatten = some h →
        m.handleRequest info reads = some (response (a.toResponse info))) ∧
      (∀ info later, readResponse (response (a.toResponse info) ++ later) =
        some (a.code, a.body info, later)) ∧
      (a = .unauthorized ↔ m.expectedAuth ≠ [] ∧
        lastField authorization (fields h) ≠ basic ++ m.expectedAuth) ∧
      (a = .unauthorized → ∀ info info', a.toResponse info = a.toResponse info') ∧
      (∀ r : Request, r.Ok → h = headOf r.lines → a = m.answer r.path r.credentials) ∧
      (a = .clients → ∀ info : Info,
        (Json.parse (a.body info) = some (clientsDocument info.clients) ↔
          ∀ c peer, some (c, peer) ∈ info.sessions → Json.Plain (bytesOf c.clientName) ∧
            Json.Plain peer.remoteEndpointString ∧ Json.Plain peer.protocolName ∧
            ∀ l ∈ c.proxies ++ c.udpProxies, Json.Plain (bytesOf l.proxyName))) ∧
      (0x0A ∈ m.expectedAuth → a = .unauthorized) := by
  have hanswer := m.answer_unauthorized_iff (pathOf ((lines h).head?.getD []))
    (lastField authorization (fields h))
  refine ⟨m.answer (pathOf ((lines h).head?.getD [])) (lastField authorization (fields h)),
    fun info reads hh => m.handleRequest_of_head info hh,
    fun info later => Answer.readResponse_response info _ later, hanswer, fun hdenied => ?_, ?_,
    fun hclients info => ?_, fun hnewline => ?_⟩
  · rw [hdenied]
    exact fun _ _ => rfl
  · rintro r hr rfl
    obtain ⟨hpath, hcredentials⟩ := request_read hr
    rw [hpath, hcredentials]
  · rw [hclients]
    exact parse_getClientsInfo_iff info.sessions info.counters
  -- no field equals credentials with a newline in them
  · refine hanswer.mpr ⟨List.ne_nil_of_mem hnewline, fun heq => ?_⟩
    refine newline_notMem_lastField authorization h ?_
    rw [heq]
    exact List.mem_append_right _ hnewline

/-- The Base64 of `u:p`. -/
def sampleCrypto : Crypto where
  sha1 := id
  base64 _ := bytesOf "dTpw\n"

def sampleRequest : Request where
  method := bytesOf "GET"
  path := statusPath
  version := bytesOf "HTTP/1.1"
  fields := [bytesOf "Host: cfrp", bytesOf "Authorization: Basic dTpw"]

theorem sampleRequest_ok : sampleRequest.Ok where
  method := ⟨by decide +kernel, by decide +kernel⟩
  path := ⟨by decide +kernel, by decide +kernel⟩
  version := ⟨by decide +kernel, by decide +kernel⟩
  fields := by decide +kernel

/-- The request in two reads, with something behind it. -/
def sampleReads : List (List Byte) :=
  [(headOf sampleRequest.lines).take 40, (headOf sampleRequest.lines).drop 40 ++ [0x78]]

/-- One client that has sent and received, and one that has gone. -/
def sampleInfo : Info where
  version := bytesOf "1.0"
  sessions := [
    some ({
      muxSession := 0
      clientName := "web"
      proxies := [{ id := 0, kind := .tcp, port := 6000, proxyName := "p", session := 0 }] },
      ⟨bytesOf "192.0.2.1:40000", bytesOf "TCP"⟩),
    none]
  counters _ := ⟨1, 2, 3, 4⟩

theorem management_answers_status :
    (setCredentials sampleCrypto (bytesOf "u") (bytesOf "p")).handleRequest sampleInfo
        sampleReads = some (response (Answer.status.toResponse sampleInfo)) := by
  have hhead : head sampleReads.flatten = some (headOf sampleRequest.lines) := by decide +kernel
  obtain ⟨a, hall, -, -, -, hanswer, -⟩ := management_answers
    (setCredentials sampleCrypto (bytesOf "u") (bytesOf "p")) (headOf sampleRequest.lines)
  have hstatus : a = .status := by
    rw [hanswer sampleRequest sampleRequest_ok rfl]
    decide +kernel
  rw [hall sampleInfo sampleReads hhead, hstatus]

end ManagementServer

end Cfrp
