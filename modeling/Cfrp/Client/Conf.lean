import Cfrp.Lib.Table
import Mathlib.Init
import Mathlib.Data.List.AList

/-!
# Reading `conf.d`

What `PollConfDirectory` makes of the files it finds. The TOML parser is a library;
a file is what the parser returns for it, one field for each key the client asks
for, with `none` where the key is missing or has another type.
-/

namespace Cfrp

open Lib

structure ProxyConfig where
  name : String
  type : String
  localIp : String
  localPort : UInt16
  remotePort : UInt16
  customDomains : List String := []
  bandwidthLimit : Int64 := 0
  deriving DecidableEq

namespace Conf

/-- `custom_domains`: an array, whose elements may have any type, or one string. -/
inductive Domains where
  | array (ds : List (Option String))
  | text (d : String)
  | absent
  deriving DecidableEq

/-- `bandwidth_limit`: a string with a unit, or a number. -/
inductive Bandwidth where
  | text (s : String)
  | number (n : Int64)
  | absent
  deriving DecidableEq

structure Data where
  name : Option String := none
  type : Option String := none
  localIp : Option String := none
  localPort : Option Int := none
  remotePort : Option Int := none
  customDomains : Domains := .absent
  bandwidthLimit : Bandwidth := .absent
  deriving DecidableEq

/-- A regular file with the extension `.toml`; `data` is `none` when parsing it throws. -/
structure File where
  stem : String
  data : Option Data
  deriving DecidableEq

/-- The characters `std::stoll` skips. -/
def isSpace (c : Char) : Bool :=
  c == ' ' || c == '\t' || c == '\n' || c == '\r' || c == '\x0b' || c == '\x0c'

/-- `std::stoll`: `none` where it throws. -/
def stoll (s : String) : Option Int64 :=
  let cs := s.toList.dropWhile isSpace
  let negative := cs.head? == some '-'
  let cs := if cs.head? == some '-' || cs.head? == some '+' then cs.tail else cs
  let digits := cs.takeWhile Char.isDigit
  if digits.isEmpty then none
  else
    let n : Int := digits.foldl (fun n c => 10 * n + (c.toNat - '0'.toNat)) (0 : Nat)
    let v := if negative then -n else n
    if Int64.minValue.toInt ≤ v ∧ v ≤ Int64.maxValue.toInt then some (Int64.ofInt v) else none

/-- `ParseBandwidth`. A product that does not fit wraps around. -/
def parseBandwidth (s : String) : Int64 :=
  match s.toList.getLast? with
  | none => 0
  | some last =>
      let unit := last.toUpper
      let scaled (multiplier : Int64) : Int64 :=
        ((stoll (String.ofList s.toList.dropLast)).map (· * multiplier)).getD 0
      if unit = 'K' then scaled 1024
      else if unit = 'M' then scaled (1024 * 1024)
      else if unit = 'G' then scaled (1024 * 1024 * 1024)
      else (stoll s).getD 0

/-- `static_cast<uint16_t>(….value_or(0))`. -/
def portOf (n : Option Int) : UInt16 := UInt16.ofNat ((n.getD 0) % 65536).toNat

def domainsOf : Domains → List String
  | .array ds => ds.filterMap id
  | .text d => [d]
  | .absent => []

def bandwidthOf : Bandwidth → Int64
  | .text s => parseBandwidth s
  | .number n => n
  | .absent => 0

/-- The proxy a file defines. -/
def proxyOf (stem : String) (data : Data) : ProxyConfig where
  name := if data.name.getD "" = "" then stem else data.name.getD ""
  type := data.type.getD "tcp"
  localIp := data.localIp.getD "127.0.0.1"
  localPort := portOf data.localPort
  remotePort := portOf data.remotePort
  customDomains := domainsOf data.customDomains
  bandwidthLimit := bandwidthOf data.bandwidthLimit

/-- One turn of the loop over the directory. -/
def addFile (newProxies : Table String ProxyConfig) (file : File) : Table String ProxyConfig :=
  match file.data with
  | none => newProxies
  | some data =>
      let pc := proxyOf file.stem data
      if pc.name = "" then newProxies else newProxies.insert pc.name pc

/-- `new_proxies` after the scan of the directory. -/
def parseDirectory (files : List File) : Table String ProxyConfig := files.foldl addFile ∅

/-- Every proxy is filed under its own name. -/
theorem parseDirectory_name {files : List File} {n : String} {pc : ProxyConfig}
    (h : (parseDirectory files).lookup n = some pc) : pc.name = n := by
  have hfold : ∀ (files : List File) (t : Table String ProxyConfig),
      (∀ n pc, t.lookup n = some pc → pc.name = n) →
      ∀ n pc, (files.foldl addFile t).lookup n = some pc → pc.name = n := by
    intro files
    induction files with
    | nil => exact fun t ht => ht
    | cons file files ih =>
        intro t ht
        refine ih (addFile t file) fun n pc hn => ?_
        unfold addFile at hn
        split at hn
        · exact ht n pc hn
        · simp only at hn
          split at hn
          · exact ht n pc hn
          · rw [Table.lookup_insert_if] at hn
            split at hn
            · rename_i heq
              rw [← Option.some.inj hn, heq]
            · exact ht n pc hn
  exact hfold files ∅ (fun n pc h => absurd h (by simp)) n pc h

end Conf

end Cfrp
