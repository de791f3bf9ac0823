import AuvMiddleware.Lib.Decimal
import AuvMiddleware.Lidar.QueryWire
import AuvMiddleware.Lidar.ReaderSpec
import AuvMiddleware.Mw.Replier

/-!
# ScanQueryServer (query_server.cpp)
-/

namespace AuvMiddleware.Lidar
open Decimal Mw

/-! ### Commands -/

def kLatest : Bytes := ascii ['L', 'A', 'T', 'E', 'S', 'T']
def kRange : Bytes := ascii ['R', 'A', 'N', 'G', 'E', ' ']
def kRecent : Bytes := ascii ['R', 'E', 'C', 'E', 'N', 'T', ' ']
def space : Byte := lowByte ' '.toNat

def fromChars (text : Bytes) : Parsed := parse Int64.minValue.toInt Int64.maxValue.toInt text

def parseRange (command : Bytes) : Option (Int64 × Int64) :=
  if command.take 6 ≠ kRange then none
  else
    match fromChars (command.drop 6) with
    | .ok start rest =>
      match fromChars (rest.dropWhile fun b => b = space) with
      | .ok stop _ => some (Int64.ofInt start, Int64.ofInt stop)
      | _ => none
    | _ => none

def parseRecent (command : Bytes) : Option Int64 :=
  if command.take 7 ≠ kRecent then none
  else
    match fromChars (command.drop 7) with
    | .ok window _ => some (Int64.ofInt window)
    | _ => none

/-! ### Answering -/

structure ServerState where
  reading : ReaderState
  servedCount : ℕ := 0

def onReader {α : Type} (call : Call Exn ReaderState α) : Call Exn ServerState α := fun s =>
  let r := call s.reading
  (r.1, { s with reading := r.2 })

def getLast (P : Protobuf) : Call Exn ReaderState Scan := do
  let n ← count
  get P (n - 1)

def handleLatest (P : Protobuf) : Call Exn ReaderState (List Scan) := do
  let n ← count
  if n > 0 then
    let scan ← getLast P
    pure [scan]
  else pure []

def handleRecent (P : Protobuf) (windowNs : Int64) : Call Exn ReaderState (List Scan) := do
  let n ← count
  if n = 0 then pure []
  else
    let newest ← getLast P
    findByTimeRange P (newest.stampNs - windowNs) newest.stampNs

/-- The scans that answer a command; one that is not recognised is answered with nothing. -/
def dispatch (P : Protobuf) (command : Bytes) : Call Exn ReaderState (List Scan) :=
  if command = kLatest then handleLatest P
  else
    match parseRange command with
    | some (startNs, endNs) => findByTimeRange P startNs endNs
    | none =>
      match parseRecent command with
      | some windowNs => handleRecent P windowNs
      | none => pure []

/-- `ScanQueryServer::Impl::handle` (`query_server.cpp:65-97`). -/
def handle (P : Protobuf) (command : Bytes) : Call Exn ServerState Bytes := do
  Call.modify fun s => { s with servedCount := s.servedCount + 1 }
  let scans ← onReader (dispatch P command)
  pure (encodeScans P scans)

end AuvMiddleware.Lidar
