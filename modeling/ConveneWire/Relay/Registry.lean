import Mathlib.Data.List.AList
import ConveneWire.Lib.Transition

/-! # The registry of the relay

`ops/convenewire-relay`: the routes, session tokens and streams a relay keeps
under one mutex. Each function below is one stretch of code between a lock and
its unlock; the goroutines that run them are interleaved freely by `Step`.
Sessions and streams are pointers in the source, here positions in the list of
everything allocated so far. -/

namespace ConveneWire.Relay

open Relation (ReflTransGen)

structure Config where
  maxNodes : Nat
  maxStreamsPerNode : Nat
  controlHost : String

/-- `crypto/rand` and `sha256` as the relay relies on them: a drawn secret is new
and two texts do not share a digest. -/
structure Secrets (δ : Type) where
  secret : Nat → String
  secret_injective : Function.Injective secret
  sum256 : String → δ
  sum256_injective : Function.Injective sum256

structure Stream where
  id : String
  session : Nat
  claimed : Bool
  /-- `data` and `socket` have been stored. -/
  attached : Bool
  closed : Bool
  deriving DecidableEq, Repr

structure Session where
  hostname : String
  token : String
  /-- The session's own context; it also ends with the server's. -/
  canceled : Bool
  streams : AList fun _ : String => Nat
  /-- What `session.close` has yet to close, once it has taken its snapshot. -/
  closing : Option (List Nat)

/-- A data channel that was let in, and the token it came with. -/
structure Claim where
  stream : Nat
  token : String
  deriving DecidableEq, Repr

structure Registry (δ : Type) where
  closed : Bool
  routes : AList fun _ : String => Nat
  tokens : AList fun _ : δ => Nat
  sessions : List Session
  streams : List Stream
  /-- Streams whose claim waits for its HTTP upgrade. -/
  upgrading : List Nat
  /-- How many secrets have been drawn. -/
  drawn : Nat
  claims : List Claim

namespace Registry

variable {δ : Type} [DecidableEq δ] (S : Secrets δ) (config : Config)

def new : Registry δ := ⟨false, ∅, ∅, [], [], [], 0, []⟩

/-- `session.ctx.Err() != nil`. -/
def ended (s : Registry δ) (session : Session) : Bool := session.canceled || s.closed

/-- `controlSession`, from the drawing of the token to the publication of the route. -/
def register (hostname : String) (s : Registry δ) : Registry δ :=
  if s.closed ∨ (s.routes.lookup hostname).isSome ∨ config.maxNodes ≤ s.routes.entries.length then
    { s with drawn := s.drawn + 1 }
  else
    let token := S.secret s.drawn
    let connection := s.sessions.length
    { s with
      drawn := s.drawn + 1
      sessions := s.sessions ++ [⟨hostname, token, false, ∅, none⟩]
      routes := s.routes.insert hostname connection
      tokens := s.tokens.insert (S.sum256 token) connection }

/-- The session `openStream` may add a stream to. -/
def opener (hostname : String) (s : Registry δ) : Option Nat := do
  let owner ← s.routes.lookup hostname
  let session ← s.sessions[owner]?
  if s.closed ∨ s.ended session ∨ config.maxStreamsPerNode ≤ session.streams.entries.length then none
  else some owner

def openStream (hostname : String) (s : Registry δ) : Registry δ :=
  match s.opener config hostname with
  | none => { s with drawn := s.drawn + 1 }
  | some owner =>
    let id := S.secret s.drawn
    let stream := s.streams.length
    { s with
      drawn := s.drawn + 1
      streams := s.streams ++ [⟨id, owner, false, false, false⟩]
      sessions := s.sessions.modify owner fun session =>
        { session with streams := session.streams.insert id stream } }

/-- The stream a data channel with this token and stream id may claim. -/
def candidate (token id : String) (s : Registry δ) : Option Nat := do
  let owner ← s.tokens.lookup (S.sum256 token)
  let session ← s.sessions[owner]?
  let candidate ← session.streams.lookup id
  let stream ← s.streams[candidate]?
  if s.closed ∨ s.ended session ∨ stream.closed ∨ stream.claimed then none else some candidate

/-- `streamRequest` before the upgrade. -/
def claim (token id : String) (s : Registry δ) : Registry δ :=
  match s.candidate S token id with
  | none => s
  | some candidate =>
    { s with
      streams := s.streams.modify candidate fun stream => { stream with claimed := true }
      upgrading := candidate :: s.upgrading
      claims := s.claims ++ [⟨candidate, token⟩] }

/-- Whether `streamRequest` stores the upgraded connection. -/
def attachable (candidate : Nat) (s : Registry δ) : Bool :=
  match s.streams[candidate]? with
  | none => false
  | some stream =>
    match s.sessions[stream.session]? with
    | none => false
    | some owner => !stream.closed && !s.closed && !s.ended owner

/-- `streamRequest` after the upgrade. -/
def attach (candidate : Nat) (s : Registry δ) : Registry δ :=
  { s with
    upgrading := s.upgrading.erase candidate
    streams := if s.attachable candidate then
        s.streams.modify candidate fun stream => { stream with attached := true }
      else s.streams }

/-- The upgrade failed; the caller goes on to close the stream. -/
def abandon (candidate : Nat) (s : Registry δ) : Registry δ :=
  { s with upgrading := s.upgrading.erase candidate }

/-- `stream.close`. -/
def closeStream (stream : Nat) (s : Registry δ) : Registry δ :=
  match s.streams[stream]? with
  | none => s
  | some found =>
    if found.closed then s
    else
      { s with
        streams := s.streams.modify stream fun stream => { stream with closed := true }
        sessions := s.sessions.modify found.session fun session =>
          { session with streams := session.streams.erase found.id } }

/-- `session.cancel`, called by `session.close` and by everybody who ends the session. -/
def cancel (connection : Nat) (s : Registry δ) : Registry δ :=
  { s with sessions := s.sessions.modify connection fun session => { session with canceled := true } }

/-- `session.close` from its lock to its unlock. -/
def closeSession (connection : Nat) (s : Registry δ) : Registry δ :=
  match s.sessions[connection]? with
  | none => s
  | some session =>
    { s with
      routes := if s.routes.lookup session.hostname = some connection then
          s.routes.erase session.hostname
        else s.routes
      tokens := s.tokens.erase (S.sum256 session.token)
      sessions := s.sessions.modify connection fun session =>
        { session with closing := some (session.streams.entries.map (·.2)) } }

/-- One turn of the loop that ends `session.close`. -/
def closeNext (connection stream : Nat) (rest : List Nat) (s : Registry δ) : Registry δ :=
  let s := s.closeStream stream
  { s with sessions := s.sessions.modify connection fun session =>
      { session with closing := some rest } }

/-- `Server.Close`: the server's context ends every session's. -/
def closeServer (s : Registry δ) : Registry δ := { s with closed := true }

/-- The next stretch of any goroutine. Who holds a stream may close it at any time. -/
inductive Step : Registry δ → Registry δ → Prop
  | register {s} (hostname : String) (hhost : hostname ≠ config.controlHost) :
      Step s (s.register S config hostname)
  | openStream {s} (hostname : String) : Step s (s.openStream S config hostname)
  | claim {s} (token id : String) : Step s (s.claim S token id)
  | attach {s} (candidate : Nat) (hclaimed : candidate ∈ s.upgrading) :
      Step s (s.attach candidate)
  | abandon {s} (candidate : Nat) (hclaimed : candidate ∈ s.upgrading) :
      Step s (s.abandon candidate)
  | closeStream {s} (stream : Nat) : Step s (s.closeStream stream)
  | cancel {s} (connection : Nat) : Step s (s.cancel connection)
  /-- The deferred close of a published session, which runs once and cancels first. -/
  | closeSession {s} (connection : Nat) (session : Session)
      (hfound : s.sessions[connection]? = some session) (hcanceled : session.canceled = true)
      (hopen : session.closing = none) : Step s (s.closeSession S connection)
  | closeNext {s} (connection stream : Nat) (rest : List Nat) (session : Session)
      (hfound : s.sessions[connection]? = some session)
      (hclosing : session.closing = some (stream :: rest)) :
      Step s (s.closeNext connection stream rest)
  | closeServer {s} : Step s s.closeServer

def Reachable (s : Registry δ) : Prop := ReflTransGen (Step S config) new s

end Registry

end ConveneWire.Relay
