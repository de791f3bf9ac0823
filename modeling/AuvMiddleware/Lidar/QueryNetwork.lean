import AuvMiddleware.Lidar.ServerSnapshot
import AuvMiddleware.Mw.RequestReply

/-!
# A query from the client to the files and back (query_client.cpp, scan_query_server_main.cpp)

The client's calls, the network between, a server that may end and be started again, and the
recorder that writes the files the server reads, in any order of their steps: the recorder may come
between any two calls of one request.
-/

namespace AuvMiddleware.Lidar
open Mw Runs

structure QueryNetwork where
  store : StoreState := {}
  net : ReqRep := {}
  reader : Reader := {}
  servedCount : ℕ := 0
  inHand : Option Handling := none

inductive QueryNetworkStep where
  | recorder (i : StoreStep)
  /-- The client, the network, or a receive of the server's. -/
  | net (i : NetStep)
  | openServer
  | killServer
  /-- The handler starts on the request that the server has received. -/
  | handle
  /-- The handler's next call on the reader, on the files as they are now. -/
  | call
  | reply

/-- What the server's process does apart from receiving. -/
def serverOwn : NetStep → Bool
  | .reply _ | .handlerThrows | .startServer | .stopServer => true
  | _ => false

namespace QueryNetwork

def env (s : QueryNetwork) : ReadEnv :=
  { log := s.store.files.log, table := s.store.files.index.getD Table.empty }

/-- A call that throws is the end of `main`. -/
def call (P : Protobuf) (s : QueryNetwork) : Option QueryNetwork :=
  match s.inHand with
  | some (.call c next) =>
    match (Script.call c next).advance (ReaderCall.call P) ⟨s.reader, s.env⟩ with
    | (.ok rest, st) => some { s with reader := st.reader, inHand := some rest }
    | (.error _, _) => (run netStep s.net [.handlerThrows, .stopServer]).map fun net =>
        { s with net := net, inHand := none }
  | _ => none

def step (P : Protobuf) (logPath : String) (s : QueryNetwork) :
    QueryNetworkStep → Option QueryNetwork
  | .recorder i => (storeStep P logPath s.store i).map fun store => { s with store := store }
  | .net i =>
    if serverOwn i then none
    else (netStep s.net i).map fun net => { s with net := net }
  | .openServer =>
    match openReader logPath (fun _ => none) s.store.files with
    | .error _ => none
    | .ok reader => (netStep s.net .startServer).map fun net =>
        { s with net := net, reader := reader, servedCount := 0, inHand := none }
  | .killServer => (netStep s.net .stopServer).map fun net =>
      { s with net := net, inHand := none }
  | .handle =>
    match s.inHand, s.net.server.bind fun server => server.sock.owing with
    | none, some r => some { s with
        servedCount := s.servedCount + 1, inHand := some (handling r.2) }
    | _, _ => none
  | .call => s.call P
  | .reply =>
    match s.inHand with
    | some (.done scans) => (netStep s.net (.reply (encodeScans P scans))).map fun net =>
        { s with net := net, inHand := none }
    | _ => none

end QueryNetwork

/-! ### One step -/

/-- The request that the server has received and not replied to yet. -/
def owed (w : ReqRep) : Option Request := w.server.bind fun server => server.sock.owing

section Step

variable {P : Protobuf} {logPath : String} {s s' : QueryNetwork}

end Step

end AuvMiddleware.Lidar
