import ConveneWire.Relay.Registry

/-! # What the registry keeps at every point of every interleaving

`Valid` ties the two maps to the sessions they point at and each open stream to
the map of its session. A step either changes only flags that `Valid` does not
read (`Alike`) or is one of the four that publish, add, remove and unpublish. -/

namespace ConveneWire.Relay

open Relation (ReflTransGen)
open Transition (Preserved)

/-! ## Lists of objects and maps -/

section Objects

variable {α : Type} {l l' : List α} {i j : Nat} {x y : α} {f : α → α} {R : α → α → Prop}

/-- What stands at a position after the object at `i` was changed. -/
theorem getElem?_modify_some (h : (l.modify i f)[j]? = some x) :
    ∃ y, l[j]? = some y ∧ x = if i = j then f y else y := by
  rw [List.getElem?_modify] at h
  obtain ⟨y, hy, hx⟩ := Option.map_eq_some_iff.mp h
  exact ⟨y, hy, hx.symm⟩

theorem getElem?_modify_of_some (h : l[j]? = some y) :
    (l.modify i f)[j]? = some (if i = j then f y else y) := by
  rw [List.getElem?_modify, h]
  rfl

/-- An object at a position of a list that has grown by one. -/
theorem getElem?_concat_some (h : (l ++ [x])[i]? = some y) :
    l[i]? = some y ∨ i = l.length ∧ y = x := by
  by_cases hi : i < l.length
  · rw [List.getElem?_append_left hi] at h
    exact .inl h
  rw [List.getElem?_append_right (by omega)] at h
  have hlt : i - l.length < 1 := (List.getElem?_eq_some_iff.mp h).1
  have hzero : i - l.length = 0 := by omega
  rw [hzero] at h
  exact .inr ⟨by omega, (Option.some.inj h).symm⟩

theorem getElem?_concat_of_some (h : l[i]? = some y) : (l ++ [x])[i]? = some y := by
  rw [List.getElem?_append_left (List.getElem?_eq_some_iff.mp h).1]
  exact h

/-- The same objects, each in a state that `R` allows after the one it had. -/
structure Pointwise (R : α → α → Prop) (l l' : List α) : Prop where
  kept : ∀ {i : Nat} {x}, l[i]? = some x → ∃ y, l'[i]? = some y ∧ R x y
  back : ∀ {i : Nat} {y}, l'[i]? = some y → ∃ x, l[i]? = some x ∧ R x y

theorem Pointwise.of_eq (h : l' = l) (hrefl : ∀ x, R x x) : Pointwise R l l' := by
  subst h
  exact ⟨fun hx => ⟨_, hx, hrefl _⟩, fun hx => ⟨_, hx, hrefl _⟩⟩

theorem Pointwise.modify (hrefl : ∀ x, R x x) (hf : ∀ x, l[i]? = some x → R x (f x)) :
    Pointwise R l (l.modify i f) := by
  have hstep : ∀ {j : Nat} {x}, l[j]? = some x → R x (if i = j then f x else x) := by
    intro j x hx
    split
    · rename_i heq
      subst heq
      exact hf x hx
    · exact hrefl x
  refine ⟨fun hx => ⟨_, getElem?_modify_of_some hx, hstep hx⟩, fun hy => ?_⟩
  obtain ⟨x, hx, rfl⟩ := getElem?_modify_some hy
  exact ⟨x, hx, hstep hx⟩

theorem Pointwise.imp {R' : α → α → Prop} (h : Pointwise R l l') (hR : ∀ {x y}, R x y → R' x y) :
    Pointwise R' l l' where
  kept := fun hx => (h.kept hx).imp fun _ hy => ⟨hy.1, hR hy.2⟩
  back := fun hy => (h.back hy).imp fun _ hx => ⟨hx.1, hR hx.2⟩

end Objects

section Maps

variable {κ : Type} [DecidableEq κ] {m : AList fun _ : κ => Nat} {k k' : κ} {v v' : Nat}

theorem lookup_insert_some (h : (m.insert k v).lookup k' = some v') :
    k' = k ∧ v' = v ∨ k' ≠ k ∧ m.lookup k' = some v' := by
  by_cases hk : k' = k
  · subst hk
    rw [AList.lookup_insert] at h
    exact .inl ⟨rfl, (Option.some.inj h).symm⟩
  · rw [AList.lookup_insert_ne hk] at h
    exact .inr ⟨hk, h⟩

theorem lookup_erase_some (h : (m.erase k).lookup k' = some v') :
    k' ≠ k ∧ m.lookup k' = some v' := by
  have hk : k' ≠ k := by
    rintro rfl
    rw [AList.lookup_erase] at h
    cases h
  rw [AList.lookup_erase_ne hk] at h
  exact ⟨hk, h⟩

theorem length_insert_of_none (h : m.lookup k = none) :
    (m.insert k v).entries.length = m.entries.length + 1 := by
  rw [AList.entries_insert_of_notMem (AList.lookup_eq_none.mp h)]
  rfl

theorem length_erase_le : (m.erase k).entries.length ≤ m.entries.length :=
  (List.kerase_sublist k m.entries).length_le

theorem mem_values_of_lookup (h : m.lookup k = some v) : v ∈ m.entries.map (·.2) :=
  List.mem_map.mpr ⟨⟨k, v⟩, AList.mem_lookup_iff.mp h, rfl⟩

end Maps

/-- `b` is a later state of the session `a`, and not newly closing. -/
structure Session.Becomes (a b : Session) : Prop where
  hostname : b.hostname = a.hostname
  token : b.token = a.token
  unclosed : a.closing = none → b.closing = none
  finished : a.closing = some [] → b.closing = some []

theorem Session.Becomes.refl (a : Session) : a.Becomes a := ⟨rfl, rfl, id, id⟩

/-- `b` is a later state of the stream `a`. -/
structure Stream.Becomes (a b : Stream) : Prop where
  session : b.session = a.session
  claimed : a.claimed = true → b.claimed = true
  closed : a.closed = true → b = a

theorem Stream.Becomes.refl (a : Stream) : a.Becomes a := ⟨rfl, fun h => h, fun _ => rfl⟩

/-- One of the first `n` secrets. -/
def Secrets.Drawn {δ : Type} (S : Secrets δ) (n : Nat) (text : String) : Prop :=
  ∃ k < n, text = S.secret k

section Drawn

variable {δ : Type} {S : Secrets δ} {m n : Nat} {text : String}

theorem Secrets.Drawn.mono (h : S.Drawn m text) (hle : m ≤ n) : S.Drawn n text := by
  obtain ⟨k, hk, htext⟩ := h
  exact ⟨k, Nat.lt_of_lt_of_le hk hle, htext⟩

theorem Secrets.Drawn.ne (h : S.Drawn n text) : text ≠ S.secret n := by
  obtain ⟨k, hk, rfl⟩ := h
  exact fun heq => Nat.ne_of_lt hk (S.secret_injective heq)

end Drawn

namespace Registry

variable {δ : Type} {s t u : Registry δ} {r c : Nat} {stream : Stream} {rest : List Nat}
  {session : Session}

/-! ## What every step leaves of a session, a stream and a claim -/

/-- The same sessions, none of them newly closing. -/
def Kin (s t : Registry δ) : Prop := Pointwise Session.Becomes s.sessions t.sessions

/-- What a step may do: a finished close stays finished, a closed stream stays as it is, and
a new stream belongs to a session that is not closing. -/
structure Ages (s t : Registry δ) : Prop where
  sessions : ∀ {c : Nat} {a : Session}, s.sessions[c]? = some a →
    ∃ b, t.sessions[c]? = some b ∧ b.token = a.token ∧
      (a.closing = some [] → b.closing = some [])
  streams : ∀ {r : Nat} {a : Stream}, s.streams[r]? = some a →
    ∃ b, t.streams[r]? = some b ∧ a.Becomes b
  added : ∀ {r : Nat} {b : Stream}, s.streams[r]? = none → t.streams[r]? = some b →
    ∃ session, s.sessions[b.session]? = some session ∧ session.closing = none

theorem Kin.ages (hk : Kin s t) (hstreams : Pointwise Stream.Becomes s.streams t.streams) :
    Ages s t where
  sessions := fun h => (hk.kept h).imp fun _ hb => ⟨hb.1, hb.2.token, hb.2.finished⟩
  streams := hstreams.kept
  added := fun hnone h => by
    obtain ⟨a, ha, -⟩ := hstreams.back h
    rw [hnone] at ha
    cases ha

/-- Only sessions are rewritten, or added, after `t`. -/
theorem Ages.sessioned (h : Ages s t) (hstreams : u.streams = t.streams)
    (hsessions : ∀ {c : Nat} {a : Session}, t.sessions[c]? = some a →
      ∃ b, u.sessions[c]? = some b ∧ b.token = a.token ∧
        (a.closing = some [] → b.closing = some [])) : Ages s u where
  sessions := fun ha => by
    obtain ⟨b, hb, htoken, hfinished⟩ := h.sessions ha
    obtain ⟨b', hb', htoken', hfinished'⟩ := hsessions hb
    exact ⟨b', hb', htoken'.trans htoken, fun hdone => hfinished' (hfinished hdone)⟩
  streams := by
    rw [hstreams]
    exact h.streams
  added := by
    rw [hstreams]
    exact h.added

/-- The claim is marked on its stream and came with the token of that stream's session. -/
def ClaimValid (s : Registry δ) (claim : Claim) : Prop :=
  ∃ stream session, s.streams[claim.stream]? = some stream ∧ stream.claimed = true ∧
    s.sessions[stream.session]? = some session ∧ session.token = claim.token

theorem ClaimValid.ages {claim : Claim} (h : s.ClaimValid claim) (ha : Ages s t) :
    t.ClaimValid claim := by
  obtain ⟨stream, session, hstream, hclaimed, hsession, htoken⟩ := h
  obtain ⟨stream', hstream', hbecomes⟩ := ha.streams hstream
  obtain ⟨session', hsession', htoken', -⟩ := ha.sessions hsession
  refine ⟨stream', session', hstream', hbecomes.claimed hclaimed, ?_, htoken'.trans htoken⟩
  rw [hbecomes.session]
  exact hsession'

/-! ## Steps that change flags only -/

/-- `t` is `s` up to canceled contexts, claims, attachments and further draws. -/
structure Alike (s t : Registry δ) : Prop where
  routes : t.routes = s.routes
  tokens : t.tokens = s.tokens
  drawn : s.drawn ≤ t.drawn
  sessions : Pointwise (fun a b => ∃ canceled : Bool, b = { a with canceled }) s.sessions t.sessions
  streams : Pointwise (fun a b => a.Becomes b ∧
    ∃ claimed attached : Bool, b = { a with claimed, attached }) s.streams t.streams

theorem Alike.kin (ha : Alike s t) : Kin s t := ha.sessions.imp <| by
  rintro a _ ⟨canceled, rfl⟩
  exact ⟨rfl, rfl, id, id⟩

theorem Alike.ages (ha : Alike s t) : Ages s t := ha.kin.ages (ha.streams.imp And.left)

/-- A stream gets its flags raised. -/
theorem Alike.raise {f : Stream → Stream}
    (hf : ∀ stream, s.streams[r]? = some stream → stream.Becomes (f stream) ∧
      ∃ claimed attached : Bool, f stream = { stream with claimed, attached })
    (hstreams : t.streams = s.streams.modify r f) (hsame : t.routes = s.routes ∧
      t.tokens = s.tokens ∧ t.sessions = s.sessions) (hdrawn : s.drawn ≤ t.drawn) : Alike s t := by
  refine ⟨hsame.1, hsame.2.1, hdrawn, .of_eq hsame.2.2 fun _ => ⟨_, rfl⟩, ?_⟩
  rw [hstreams]
  exact .modify (fun stream => ⟨.refl stream, _, _, rfl⟩) hf

theorem Alike.of_eq (hdrawn : s.drawn ≤ t.drawn) (hsame : t.routes = s.routes ∧
      t.tokens = s.tokens ∧ t.sessions = s.sessions ∧ t.streams = s.streams) : Alike s t :=
  ⟨hsame.1, hsame.2.1, hdrawn, .of_eq hsame.2.2.1 fun _ => ⟨_, rfl⟩,
    .of_eq hsame.2.2.2 fun stream => ⟨.refl stream, _, _, rfl⟩⟩

theorem Alike.refl (s : Registry δ) : Alike s s := .of_eq (le_refl _) ⟨rfl, rfl, rfl, rfl⟩

theorem Ages.refl (s : Registry δ) : Ages s s := (Alike.refl s).ages

theorem Alike.cancel : Alike s (s.cancel c) :=
  ⟨rfl, rfl, le_refl _, .modify (fun _ => ⟨_, rfl⟩) fun _ _ => ⟨_, rfl⟩,
    .of_eq rfl fun stream => ⟨.refl stream, _, _, rfl⟩⟩

theorem Alike.attach (r : Nat) : Alike s (s.attach r) := by
  unfold Registry.attach
  split
  · rename_i hattach
    refine .raise (fun stream hstream => ?_) rfl ⟨rfl, rfl, rfl⟩ (le_refl _)
    refine ⟨⟨rfl, id, fun hclosed => ?_⟩, _, _, rfl⟩
    simp only [attachable, hstream] at hattach
    split at hattach
    · cases hattach
    · simp [hclosed] at hattach
  · exact .of_eq (le_refl _) ⟨rfl, rfl, rfl, rfl⟩

/-- What `openStream` checks. -/
theorem opener_some {hostname : String} (h : s.opener config hostname = some c) :
    ∃ session, s.routes.lookup hostname = some c ∧ s.sessions[c]? = some session ∧
      session.streams.entries.length < config.maxStreamsPerNode := by
  simp only [opener, Option.bind_eq_bind, Option.bind_eq_some_iff] at h
  obtain ⟨owner, hroute, session, hsession, h⟩ := h
  split at h
  · cases h
  rename_i hroom
  cases h
  simp only [not_or, not_le] at hroom
  exact ⟨session, hroute, hsession, hroom.2.2⟩

/-! ## Closed streams -/

/-- `stream.close` closes a stream that is open, once. -/
theorem closeStream_cases (r : Nat) : s.closeStream r = s ∧
    (∀ stream, s.streams[r]? = some stream → stream.closed = true) ∨
    ∃ found, s.streams[r]? = some found ∧ found.closed = false ∧ s.closeStream r = { s with
      streams := s.streams.modify r fun stream => { stream with closed := true }
      sessions := s.sessions.modify found.session fun session =>
        { session with streams := session.streams.erase found.id } } := by
  unfold closeStream
  split
  · rename_i hnone
    exact .inl ⟨rfl, fun _ h => by rw [hnone] at h; cases h⟩
  rename_i found hfound
  split
  · rename_i hclosed
    exact .inl ⟨rfl, fun _ h => Option.mem_unique hfound h ▸ hclosed⟩
  · rename_i hopen
    exact .inr ⟨found, hfound, Bool.eq_false_iff.mpr hopen, rfl⟩

/-- What a session is about to close is left by `stream.close`. -/
theorem closeStream_sessions (r : Nat) :
    Pointwise (fun a b => ∃ streams, b = { a with streams }) s.sessions (s.closeStream r).sessions := by
  rcases closeStream_cases (s := s) r with ⟨heq, -⟩ | ⟨found, -, -, heq⟩ <;> rw [heq]
  · exact .of_eq rfl fun _ => ⟨_, rfl⟩
  · exact .modify (fun _ => ⟨_, rfl⟩) fun _ _ => ⟨_, rfl⟩

theorem Kin.closeStream (r : Nat) : Kin s (s.closeStream r) := (closeStream_sessions r).imp <| by
  rintro a _ ⟨streams, rfl⟩
  exact ⟨rfl, rfl, id, id⟩

theorem Ages.closeStream (r : Nat) : Ages s (s.closeStream r) := by
  refine (Kin.closeStream r).ages ?_
  rcases closeStream_cases (s := s) r with ⟨heq, -⟩ | ⟨found, hfound, hopen, heq⟩ <;> rw [heq]
  · exact .of_eq rfl .refl
  · refine .modify .refl fun stream hstream => ⟨rfl, id, fun hclosed => ?_⟩
    rw [← Option.mem_unique hfound hstream, hopen] at hclosed
    cases hclosed

theorem closeStream_closed
    (h : (s.closeStream r).streams[r]? = some stream) : stream.closed = true := by
  rcases closeStream_cases (s := s) r with ⟨heq, hclosed⟩ | ⟨found, hfound, -, heq⟩ <;>
    rw [heq] at h
  · exact hclosed stream h
  · obtain ⟨before, -, rfl⟩ := getElem?_modify_some h
    rw [if_pos rfl]

theorem Kin.closeNext {r : Nat} (hsession : s.sessions[c]? = some session)
    (hclosing : session.closing = some (r :: rest)) :
    Kin (s.closeStream r) (s.closeNext c r rest) := by
  refine .modify .refl fun before hbefore => ?_
  obtain ⟨_, ha, streams, rfl⟩ := (closeStream_sessions r).back hbefore
  obtain rfl := Option.mem_unique hsession ha
  exact ⟨rfl, rfl, fun hopen => (nomatch hclosing.symm.trans hopen),
    fun hdone => (nomatch hclosing.symm.trans hdone)⟩

section Valid

variable [DecidableEq δ] (S : Secrets δ) (config : Config)

/-! ## The invariant -/

/-- The maps of the server point at the sessions that are not closing. -/
structure Published (s : Registry δ) : Prop where
  nodes : s.routes.entries.length ≤ config.maxNodes
  routed : ∀ {hostname c}, s.routes.lookup hostname = some c →
    ∃ session, s.sessions[c]? = some session ∧ session.hostname = hostname ∧
      session.closing = none
  token : ∀ {d c}, s.tokens.lookup d = some c →
    ∃ session, s.sessions[c]? = some session ∧ S.sum256 session.token = d ∧
      session.closing = none
  distinct : ∀ {c c' : Nat} {session session' : Session}, s.sessions[c]? = some session →
    s.sessions[c']? = some session' → session.token = session'.token → c = c'

structure SessionValid (s : Registry δ) (c : Nat) (session : Session) : Prop where
  capacity : session.streams.entries.length ≤ config.maxStreamsPerNode
  drawn : S.Drawn s.drawn session.token
  published : session.closing = none →
    s.routes.lookup session.hostname = some c ∧ s.tokens.lookup (S.sum256 session.token) = some c
  holds : ∀ {id r}, session.streams.lookup id = some r →
    ∃ stream, s.streams[r]? = some stream ∧ stream.session = c ∧ stream.id = id ∧
      stream.closed = false
  /-- The snapshot of a closing session still has every stream it holds. -/
  covered : ∀ {rest}, session.closing = some rest → ∀ {id r},
    session.streams.lookup id = some r → r ∈ rest

structure StreamValid (s : Registry δ) (r : Nat) (stream : Stream) : Prop where
  drawn : S.Drawn s.drawn stream.id
  tracked : ∃ session, s.sessions[stream.session]? = some session ∧
    (stream.closed = false → session.streams.lookup stream.id = some r)

structure Valid (s : Registry δ) : Prop extends Published S config s where
  session : ∀ {c : Nat} {session : Session}, s.sessions[c]? = some session →
    SessionValid S config s c session
  stream : ∀ {r : Nat} {stream : Stream}, s.streams[r]? = some stream → StreamValid S s r stream
  once : (s.claims.map Claim.stream).Nodup
  claim : ∀ claim ∈ s.claims, s.ClaimValid claim

theorem Valid.new : Valid S config (new : Registry δ) where
  nodes := Nat.zero_le _
  routed := fun h => by cases h
  token := fun h => by cases h
  distinct := fun h => by cases h
  session := fun h => by cases h
  stream := fun h => by cases h
  once := List.nodup_nil
  claim := fun _ h => by cases h

variable {S config}

theorem Published.kin (h : Published S config s) (hk : Kin s t) (hroutes : t.routes = s.routes)
    (htokens : t.tokens = s.tokens) : Published S config t where
  nodes := by
    rw [hroutes]
    exact h.nodes
  routed := fun hroute => by
    rw [hroutes] at hroute
    obtain ⟨before, hbefore, hname, hopen⟩ := h.routed hroute
    obtain ⟨after, hafter, hbecomes⟩ := hk.kept hbefore
    exact ⟨after, hafter, hbecomes.hostname.trans hname, hbecomes.unclosed hopen⟩
  token := fun htoken => by
    rw [htokens] at htoken
    obtain ⟨before, hbefore, hsum, hopen⟩ := h.token htoken
    obtain ⟨after, hafter, hbecomes⟩ := hk.kept hbefore
    refine ⟨after, hafter, ?_, hbecomes.unclosed hopen⟩
    rw [hbecomes.token]
    exact hsum
  distinct := fun h₁ h₂ heq => by
    obtain ⟨before₁, h₁, hb₁⟩ := hk.back h₁
    obtain ⟨before₂, h₂, hb₂⟩ := hk.back h₂
    rw [hb₁.token, hb₂.token] at heq
    exact h.distinct h₁ h₂ heq

/-- Flags are not read by the invariant; only the log of claims has to be looked at. -/
theorem Valid.alike (h : Valid S config s) (ha : Alike s t)
    (honce : (t.claims.map Claim.stream).Nodup) (hclaim : ∀ claim ∈ t.claims, t.ClaimValid claim) :
    Valid S config t where
  toPublished := h.toPublished.kin ha.kin ha.routes ha.tokens
  session := fun hsession => by
    obtain ⟨before, hbefore, canceled, rfl⟩ := ha.sessions.back hsession
    have hv := h.session hbefore
    refine ⟨hv.capacity, hv.drawn.mono ha.drawn, ?_, ?_, hv.covered⟩
    · rw [ha.routes, ha.tokens]
      exact hv.published
    intro id r hlookup
    obtain ⟨stream, hstream, howner, hid, hopen⟩ := hv.holds hlookup
    obtain ⟨_, hstream', -, claimed, attached, rfl⟩ := ha.streams.kept hstream
    exact ⟨_, hstream', howner, hid, hopen⟩
  stream := fun hstream => by
    obtain ⟨before, hbefore, -, claimed, attached, rfl⟩ := ha.streams.back hstream
    have hv := h.stream hbefore
    obtain ⟨session, hsession, htracked⟩ := hv.tracked
    obtain ⟨_, hsession', canceled, rfl⟩ := ha.sessions.kept hsession
    exact ⟨hv.drawn.mono ha.drawn, _, hsession', htracked⟩
  once := honce
  claim := hclaim

/-- No new claim either. -/
theorem Valid.alike_claims (h : Valid S config s) (ha : Alike s t) (hclaims : t.claims = s.claims) :
    Valid S config t := by
  refine h.alike ha ?_ ?_
  · rw [hclaims]
    exact h.once
  · rw [hclaims]
    exact fun claim hmem => (h.claim claim hmem).ages ha.ages

/-! ## Flags -/

theorem Valid.redraw (h : Valid S config s) : Valid S config { s with drawn := s.drawn + 1 } :=
  h.alike_claims (.of_eq (Nat.le_succ _) ⟨rfl, rfl, rfl, rfl⟩) rfl

/-- What a data channel has to show to claim a stream. -/
theorem candidate_some {token id : String} (h : s.candidate S token id = some r) :
    ∃ c session stream, s.tokens.lookup (S.sum256 token) = some c ∧
      s.sessions[c]? = some session ∧ session.streams.lookup id = some r ∧
      s.streams[r]? = some stream ∧ stream.closed = false ∧ stream.claimed = false := by
  simp only [candidate, Option.bind_eq_bind, Option.bind_eq_some_iff] at h
  obtain ⟨c, htoken, session, hsession, r', hlookup, stream, hstream, h⟩ := h
  split at h
  · cases h
  rename_i hfree
  cases h
  simp only [not_or, Bool.not_eq_true] at hfree
  exact ⟨c, session, stream, htoken, hsession, hlookup, hstream, hfree.2.2.1, hfree.2.2.2⟩

theorem Alike.claim (token id : String) : Alike s (s.claim S token id) := by
  unfold Registry.claim
  split
  · exact .refl s
  rename_i candidate hc
  obtain ⟨_, _, found, -, -, -, hfound, hopen, -⟩ := candidate_some hc
  refine .raise (fun stream hstream => ?_) rfl ⟨rfl, rfl, rfl⟩ (le_refl _)
  refine ⟨⟨rfl, fun _ => rfl, fun hclosed => ?_⟩, _, _, rfl⟩
  rw [← Option.mem_unique hfound hstream, hopen] at hclosed
  cases hclosed

theorem Valid.claimed (h : Valid S config s) (token id : String) :
    Valid S config (s.claim S token id) := by
  have ha : Alike s (s.claim S token id) := .claim token id
  cases hc : s.candidate S token id with
  | none =>
    have heq : s.claim S token id = s := by simp [Registry.claim, hc]
    rw [heq]
    exact h
  | some r =>
    have hclaims : (s.claim S token id).claims = s.claims ++ [⟨r, token⟩] := by
      simp [Registry.claim, hc]
    obtain ⟨c, session, stream, htoken, hsession, hlookup, hstream, -, hfree⟩ := candidate_some hc
    refine h.alike ha ?_ ?_
    · -- a stream that was claimed before is marked
      rw [hclaims, List.map_append, List.nodup_append]
      refine ⟨h.once, List.nodup_singleton _, ?_⟩
      intro r₁ hr₁ r₂ hr₂ heq
      obtain ⟨old, hold, rfl⟩ := List.mem_map.mp hr₁
      obtain ⟨stream', session', hstream', hmarked, -⟩ := h.claim old hold
      have hr : old.stream = r := heq.trans (List.mem_singleton.mp hr₂)
      rw [hr, hstream] at hstream'
      cases hstream'
      rw [hfree] at hmarked
      cases hmarked
    · intro claim hmem
      rw [hclaims, List.mem_append, List.mem_singleton] at hmem
      rcases hmem with hmem | rfl
      · exact (h.claim claim hmem).ages ha.ages
      obtain ⟨session', hsession', hsum, -⟩ := h.token htoken
      obtain ⟨stream', hstream', howner, -⟩ := (h.session hsession).holds hlookup
      rw [hsession] at hsession'
      rw [hstream] at hstream'
      cases hsession'
      cases hstream'
      refine ⟨{ stream with claimed := true }, session, ?_, rfl, ?_, S.sum256_injective hsum⟩
      · simp only [Registry.claim, hc]
        rw [getElem?_modify_of_some hstream, if_pos rfl]
      · simp only [Registry.claim, hc]
        rw [howner]
        exact hsession

/-! ## Publication -/

theorem Ages.register (hostname : String) : Ages s (s.register S config hostname) := by
  unfold Registry.register
  split
  · exact Alike.ages (.of_eq (Nat.le_succ _) ⟨rfl, rfl, rfl, rfl⟩)
  · exact (Ages.refl s).sessioned rfl fun h =>
      ⟨_, getElem?_concat_of_some h, rfl, id⟩

theorem Valid.registered (h : Valid S config s) (hostname : String) :
    Valid S config (s.register S config hostname) := by
  have hages : Ages s (s.register S config hostname) := .register hostname
  unfold register at hages ⊢
  split
  · exact h.redraw
  rename_i hguard
  rw [if_neg hguard] at hages
  simp only [not_or, Bool.not_eq_true, Option.isSome_eq_false_iff, Option.isNone_iff_eq_none,
    not_le] at hguard
  obtain ⟨-, hnone, hroom⟩ := hguard
  have hfresh : ∀ {c : Nat} {session : Session}, s.sessions[c]? = some session →
      session.token ≠ S.secret s.drawn := fun hsession => (h.session hsession).drawn.ne
  have hnew : (s.sessions ++ [(⟨hostname, S.secret s.drawn, false, ∅, none⟩ : Session)])[
      s.sessions.length]? = some ⟨hostname, S.secret s.drawn, false, ∅, none⟩ := by
    simp
  refine ⟨⟨?_, ?_, ?_, ?_⟩, ?_, ?_, h.once, fun claim hmem => (h.claim claim hmem).ages hages⟩
  · rw [length_insert_of_none hnone]
    exact hroom
  · intro name c hroute
    rcases lookup_insert_some hroute with ⟨rfl, rfl⟩ | ⟨-, hroute⟩
    · exact ⟨_, hnew, rfl, rfl⟩
    · obtain ⟨session, hsession, hname⟩ := h.routed hroute
      exact ⟨session, getElem?_concat_of_some hsession, hname⟩
  · intro d c htoken
    rcases lookup_insert_some htoken with ⟨rfl, rfl⟩ | ⟨-, htoken⟩
    · exact ⟨_, hnew, rfl, rfl⟩
    · obtain ⟨session, hsession, hsum⟩ := h.token htoken
      exact ⟨session, getElem?_concat_of_some hsession, hsum⟩
  · intro c c' session session' h₁ h₂ heq
    rcases getElem?_concat_some h₁ with h₁ | ⟨rfl, rfl⟩ <;>
      rcases getElem?_concat_some h₂ with h₂ | ⟨rfl, rfl⟩
    · exact h.distinct h₁ h₂ heq
    · exact absurd heq (hfresh h₁)
    · exact absurd heq.symm (hfresh h₂)
    · rfl
  · intro c session hsession
    rcases getElem?_concat_some hsession with hsession | ⟨rfl, rfl⟩
    · have hv := h.session hsession
      refine ⟨hv.capacity, hv.drawn.mono (Nat.le_succ _), fun hopen => ?_, hv.holds, hv.covered⟩
      obtain ⟨hroute, hmap⟩ := hv.published hopen
      have hname : session.hostname ≠ hostname := by
        intro heq
        rw [heq, hnone] at hroute
        cases hroute
      have hsum : S.sum256 session.token ≠ S.sum256 (S.secret s.drawn) :=
        fun heq => hfresh hsession (S.sum256_injective heq)
      rw [AList.lookup_insert_ne hname, AList.lookup_insert_ne hsum]
      exact ⟨hroute, hmap⟩
    · refine ⟨Nat.zero_le _, ⟨s.drawn, Nat.lt_succ_self _, rfl⟩, fun _ => ?_, ?_, ?_⟩
      · exact ⟨AList.lookup_insert _, AList.lookup_insert _⟩
      · intro id r hlookup
        cases hlookup
      · intro rest hclosing
        cases hclosing
  · intro r stream hstream
    have hv := h.stream hstream
    obtain ⟨session, hsession, htracked⟩ := hv.tracked
    exact ⟨hv.drawn.mono (Nat.le_succ _), session, getElem?_concat_of_some hsession, htracked⟩

/-! ## New streams -/

theorem Valid.opened (h : Valid S config s) (hostname : String) :
    Valid S config (s.openStream S config hostname) ∧ Ages s (s.openStream S config hostname) := by
  unfold openStream
  split
  · exact ⟨h.redraw, Alike.ages (.of_eq (Nat.le_succ _) ⟨rfl, rfl, rfl, rfl⟩)⟩
  rename_i owner hopener
  obtain ⟨holder, hroute, hholder, hroom⟩ := opener_some hopener
  have hopen : holder.closing = none := by
    obtain ⟨session, hsession, -, hopen⟩ := h.routed hroute
    rw [hholder] at hsession
    cases hsession
    exact hopen
  have hkin : Kin s { s with sessions := s.sessions.modify owner fun session => { session with
      streams := session.streams.insert (S.secret s.drawn) s.streams.length } } :=
    .modify .refl fun session _ => ⟨rfl, rfl, id, id⟩
  have hfresh : ∀ {r : Nat} {stream : Stream}, s.streams[r]? = some stream →
      stream.id ≠ S.secret s.drawn := fun hstream => (h.stream hstream).drawn.ne
  have hunused : holder.streams.lookup (S.secret s.drawn) = none := by
    rw [Option.eq_none_iff_forall_ne_some]
    intro r hlookup
    obtain ⟨stream, hstream, -, hid, -⟩ := (h.session hholder).holds hlookup
    exact hfresh hstream hid
  have hnew : (s.streams ++ [(⟨S.secret s.drawn, owner, false, false, false⟩ : Stream)])[
      s.streams.length]? = some ⟨S.secret s.drawn, owner, false, false, false⟩ := by
    simp
  have hages : Ages s { s with
      drawn := s.drawn + 1
      streams := s.streams ++ [⟨S.secret s.drawn, owner, false, false, false⟩]
      sessions := s.sessions.modify owner fun session => { session with
        streams := session.streams.insert (S.secret s.drawn) s.streams.length } } :=
    { sessions := fun ha => (hkin.kept ha).imp fun _ hb => ⟨hb.1, hb.2.token, hb.2.finished⟩
      streams := fun ha => ⟨_, getElem?_concat_of_some ha, .refl _⟩
      added := fun hnone hb => by
        rcases getElem?_concat_some hb with hb | ⟨-, rfl⟩
        · rw [hnone] at hb
          cases hb
        · exact ⟨holder, hholder, hopen⟩ }
  refine ⟨⟨h.toPublished.kin hkin rfl rfl, ?_, ?_, h.once,
    fun claim hmem => (h.claim claim hmem).ages hages⟩, hages⟩
  · intro c session hsession
    obtain ⟨before, hbefore, rfl⟩ := getElem?_modify_some hsession
    have hv := h.session hbefore
    have hdrawn := hv.drawn.mono (Nat.le_succ _)
    have hholds : ∀ {id r}, before.streams.lookup id = some r →
        ∃ stream, (s.streams ++ [(⟨S.secret s.drawn, owner, false, false, false⟩ : Stream)])[r]? =
          some stream ∧ stream.session = c ∧ stream.id = id ∧ stream.closed = false := by
      intro id r hlookup
      obtain ⟨stream, hstream, hrest⟩ := hv.holds hlookup
      exact ⟨stream, getElem?_concat_of_some hstream, hrest⟩
    split
    · rename_i heq
      subst heq
      rw [hholder] at hbefore
      cases hbefore
      refine ⟨?_, hdrawn, hv.published, ?_, ?_⟩
      · simp only [length_insert_of_none hunused]
        exact hroom
      · intro id r hlookup
        rcases lookup_insert_some hlookup with ⟨rfl, rfl⟩ | ⟨-, hlookup⟩
        · exact ⟨_, hnew, rfl, rfl, rfl⟩
        · exact hholds hlookup
      · intro rest hclosing
        rw [hopen] at hclosing
        cases hclosing
    · exact ⟨hv.capacity, hdrawn, hv.published, hholds, hv.covered⟩
  · intro r stream hstream
    rcases getElem?_concat_some hstream with hstream | ⟨rfl, rfl⟩
    · have hv := h.stream hstream
      obtain ⟨session, hsession, htracked⟩ := hv.tracked
      refine ⟨hv.drawn.mono (Nat.le_succ _), _, getElem?_modify_of_some hsession, fun hfree => ?_⟩
      split
      · rw [AList.lookup_insert_ne (hfresh hstream)]
        exact htracked hfree
      · exact htracked hfree
    · refine ⟨⟨s.drawn, Nat.lt_succ_self _, rfl⟩, _, getElem?_modify_of_some hholder, fun _ => ?_⟩
      rw [if_pos rfl]
      exact AList.lookup_insert _

/-! ## Closed streams and sessions -/

theorem Valid.streamClosed (h : Valid S config s) (r : Nat) : Valid S config (s.closeStream r) := by
  have hkin := Kin.closeStream (s := s) r
  have hages := Ages.closeStream (s := s) r
  rcases closeStream_cases (s := s) r with ⟨heq, -⟩ | ⟨found, hfound, hopen, heq⟩ <;>
    rw [heq] at hkin hages ⊢
  · exact h
  obtain ⟨owner, howner, hlisted⟩ := (h.stream hfound).tracked
  refine ⟨h.toPublished.kin hkin rfl rfl, ?_, ?_, h.once,
    fun claim hmem => (h.claim claim hmem).ages hages⟩
  · intro c session hsession
    obtain ⟨before, hbefore, rfl⟩ := getElem?_modify_some hsession
    have hv := h.session hbefore
    -- another stream of the map is not the one that was closed
    have hother : ∀ {id r'}, before.streams.lookup id = some r' →
        (c = found.session → id ≠ found.id) →
        ∃ stream, (s.streams.modify r fun stream => { stream with closed := true })[r']? =
          some stream ∧ stream.session = c ∧ stream.id = id ∧ stream.closed = false := by
      intro id r' hlookup hid
      obtain ⟨stream, hstream, hsession, hname, hfree⟩ := hv.holds hlookup
      have hne : r ≠ r' := by
        rintro rfl
        rw [hfound] at hstream
        cases hstream
        exact hid hsession.symm hname.symm
      refine ⟨stream, ?_, hsession, hname, hfree⟩
      rw [getElem?_modify_of_some hstream, if_neg hne]
    split
    · rename_i heq
      subst heq
      refine ⟨Nat.le_trans length_erase_le hv.capacity, hv.drawn, hv.published, ?_, ?_⟩
      · intro id r' hlookup
        obtain ⟨hid, hlookup⟩ := lookup_erase_some hlookup
        exact hother hlookup fun _ => hid
      · intro rest hclosing id r' hlookup
        exact hv.covered hclosing (lookup_erase_some hlookup).2
    · rename_i hne
      exact ⟨hv.capacity, hv.drawn, hv.published, fun hlookup => hother hlookup fun heq =>
        absurd heq.symm hne, hv.covered⟩
  · intro r' stream hstream
    obtain ⟨before, hbefore, rfl⟩ := getElem?_modify_some hstream
    have hv := h.stream hbefore
    obtain ⟨session, hsession, htracked⟩ := hv.tracked
    by_cases hr : r = r'
    · subst hr
      rw [if_pos rfl]
      exact ⟨hv.drawn, _, getElem?_modify_of_some hsession, fun hfree => by cases hfree⟩
    rw [if_neg hr]
    refine ⟨hv.drawn, _, getElem?_modify_of_some hsession, fun hfree => ?_⟩
    split
    · rename_i heq
      -- two open streams of one session have different ids
      have hid : before.id ≠ found.id := by
        intro hid
        rw [← heq, howner] at hsession
        cases hsession
        have hlookup := htracked hfree
        rw [hid, hlisted hopen] at hlookup
        exact hr (Option.some.inj hlookup)
      rw [AList.lookup_erase_ne hid]
      exact htracked hfree
    · exact htracked hfree

/-- What a session is about to close changes, while it keeps every stream in the list. -/
theorem Valid.recovered {t : Registry δ} (h : Valid S config s) (hpub : Published S config t)
    (hages : Ages s t) (hsession : s.sessions[c]? = some session)
    (hrest : ∀ {id r}, session.streams.lookup id = some r → r ∈ rest)
    (hsessions : t.sessions = s.sessions.modify c fun session =>
      { session with closing := some rest })
    (hothers : ∀ {c' session'}, c' ≠ c → s.sessions[c']? = some session' →
      session'.closing = none → t.routes.lookup session'.hostname = some c' ∧
        t.tokens.lookup (S.sum256 session'.token) = some c') (hdrawn : t.drawn = s.drawn)
    (hstreams : t.streams = s.streams) (hclaims : t.claims = s.claims) : Valid S config t := by
  refine ⟨hpub, ?_, ?_, ?_, ?_⟩
  · intro c' session' hsession'
    rw [hsessions] at hsession'
    obtain ⟨before, hbefore, rfl⟩ := getElem?_modify_some hsession'
    have hv := h.session hbefore
    have hholds := @hv.holds
    have hdrawn' := hv.drawn
    rw [← hstreams] at hholds
    rw [← hdrawn] at hdrawn'
    split
    · rename_i heq
      subst heq
      rw [hsession] at hbefore
      cases hbefore
      refine ⟨hv.capacity, hdrawn', (fun hopen => nomatch hopen), hholds, ?_⟩
      intro rest' hrest'
      cases hrest'
      exact hrest
    · rename_i hne
      exact ⟨hv.capacity, hdrawn', hothers (fun heq => hne heq.symm) hbefore, hholds, hv.covered⟩
  · intro r stream hstream
    rw [hstreams] at hstream
    have hv := h.stream hstream
    obtain ⟨session', hsession', htracked⟩ := hv.tracked
    refine ⟨hdrawn ▸ hv.drawn, ?_⟩
    rw [hsessions]
    refine ⟨_, getElem?_modify_of_some hsession', fun hfree => ?_⟩
    split <;> exact htracked hfree
  · rw [hclaims]
    exact h.once
  · rw [hclaims]
    exact fun claim hmem => (h.claim claim hmem).ages hages

variable {session : Session} {c : Nat}

theorem Ages.closeSession (hsession : s.sessions[c]? = some session)
    (hopen : session.closing = none) : Ages s (s.closeSession S c) := by
  simp only [Registry.closeSession, hsession]
  refine (Ages.refl s).sessioned rfl fun {c' a} ha => ?_
  refine ⟨_, getElem?_modify_of_some ha, ?_⟩
  split
  · rename_i heq
    subst heq
    rw [← Option.mem_unique hsession ha, hopen]
    exact ⟨rfl, nofun⟩
  · exact ⟨rfl, id⟩

theorem Valid.sessionClosed (h : Valid S config s) (hsession : s.sessions[c]? = some session)
    (hopen : session.closing = none) : Valid S config (s.closeSession S c) := by
  have hages := Ages.closeSession (S := S) hsession hopen
  obtain ⟨hroute, htoken⟩ := (h.session hsession).published hopen
  simp only [closeSession, hsession, hroute, if_true] at hages ⊢
  have hothers : ∀ {c' session'}, c' ≠ c → s.sessions[c']? = some session' →
      session'.closing = none →
      (s.routes.erase session.hostname).lookup session'.hostname = some c' ∧
        (s.tokens.erase (S.sum256 session.token)).lookup (S.sum256 session'.token) = some c' := by
    intro c' session' hne hsession' hopen'
    obtain ⟨hroute', htoken'⟩ := (h.session hsession').published hopen'
    have hname : session'.hostname ≠ session.hostname := by
      intro heq
      rw [heq, hroute] at hroute'
      exact hne (Option.some.inj hroute').symm
    have hsum : S.sum256 session'.token ≠ S.sum256 session.token := fun heq =>
      hne (h.distinct hsession' hsession (S.sum256_injective heq))
    rw [AList.lookup_erase_ne hname, AList.lookup_erase_ne hsum]
    exact ⟨hroute', htoken'⟩
  refine h.recovered ⟨?_, ?_, ?_, ?_⟩ hages hsession
    (fun hlookup => mem_values_of_lookup hlookup) ?_ hothers rfl rfl rfl
  · exact Nat.le_trans length_erase_le h.nodes
  · intro name c' hlookup
    obtain ⟨hname, hlookup⟩ := lookup_erase_some hlookup
    obtain ⟨session', hsession', rfl, hopen'⟩ := h.routed hlookup
    have hne : c ≠ c' := by
      rintro rfl
      rw [hsession] at hsession'
      cases hsession'
      exact hname rfl
    refine ⟨session', ?_, rfl, hopen'⟩
    rw [getElem?_modify_of_some hsession', if_neg hne]
  · intro d c' hlookup
    obtain ⟨hsum, hlookup⟩ := lookup_erase_some hlookup
    obtain ⟨session', hsession', rfl, hopen'⟩ := h.token hlookup
    have hne : c ≠ c' := by
      rintro rfl
      rw [hsession] at hsession'
      cases hsession'
      exact hsum rfl
    refine ⟨session', ?_, rfl, hopen'⟩
    rw [getElem?_modify_of_some hsession', if_neg hne]
  · intro c₁ c₂ session₁ session₂ h₁ h₂ heq
    obtain ⟨before₁, hb₁, rfl⟩ := getElem?_modify_some h₁
    obtain ⟨before₂, hb₂, rfl⟩ := getElem?_modify_some h₂
    refine h.distinct hb₁ hb₂ ?_
    split at heq <;> split at heq <;> exact heq
  · -- the snapshot is the list of the streams of this very session
    refine List.ext_getElem? fun c' => ?_
    simp only [List.getElem?_modify]
    by_cases hc : c = c'
    · subst hc
      simp [hsession]
    · simp [hc]

theorem Valid.nextClosed (h : Valid S config s)
    (hsession : s.sessions[c]? = some session) (hclosing : session.closing = some (r :: rest)) :
    Valid S config (s.closeNext c r rest) := by
  have hclosed := h.streamClosed r
  obtain ⟨_, hafter, streams, rfl⟩ := (closeStream_sessions r).kept hsession
  have hv := hclosed.session hafter
  have hkin := Kin.closeNext hsession hclosing
  refine hclosed.recovered (hclosed.toPublished.kin hkin rfl rfl) (hkin.ages (.of_eq rfl .refl))
    hafter ?_ rfl ?_ rfl rfl rfl
  · intro id r' hlookup
    have hmem := hv.covered hclosing hlookup
    rcases List.mem_cons.mp hmem with rfl | hmem
    · -- the stream just closed is held by no session
      obtain ⟨stream, hstream, -, -, hopen⟩ := hv.holds hlookup
      rw [closeStream_closed hstream] at hopen
      cases hopen
    · exact hmem
  · intro c' session' _ hsession' hopen
    exact (hclosed.session hsession').published hopen

/-! ## Every step -/

theorem valid_step : Preserved (Step S config) (Valid S config) := by
  intro s t hstep h
  cases hstep with
  | register hostname hhost => exact h.registered hostname
  | openStream hostname => exact (h.opened hostname).1
  | claim token id => exact h.claimed token id
  | attach candidate hclaimed => exact h.alike_claims (.attach candidate) rfl
  | abandon candidate hclaimed => exact h.alike_claims (.of_eq (le_refl _) ⟨rfl, rfl, rfl, rfl⟩) rfl
  | closeStream stream => exact h.streamClosed stream
  | cancel connection => exact h.alike_claims .cancel rfl
  | closeSession connection session hfound hcanceled hopen => exact h.sessionClosed hfound hopen
  | closeNext connection stream rest session hfound hclosing => exact h.nextClosed hfound hclosing
  | closeServer => exact h.alike_claims (.of_eq (le_refl _) ⟨rfl, rfl, rfl, rfl⟩) rfl

theorem Reachable.valid (h : Reachable S config s) : Valid S config s :=
  valid_step.run h (.new S config)

/-! ## Sessions whose close has finished -/

theorem Step.ages (hv : Valid S config s) (hstep : Step S config s t) : Ages s t := by
  cases hstep with
  | register hostname hhost => exact .register hostname
  | openStream hostname => exact (hv.opened hostname).2
  | claim token id => exact (Alike.claim token id).ages
  | attach candidate hclaimed => exact (Alike.attach candidate).ages
  | closeStream stream => exact .closeStream stream
  | cancel connection => exact Alike.cancel.ages
  | closeSession connection session hfound hcanceled hopen => exact .closeSession hfound hopen
  | closeNext connection stream rest session hfound hclosing =>
    exact (Ages.closeStream stream).sessioned rfl fun ha =>
      ((Kin.closeNext hfound hclosing).kept ha).imp fun _ hb => ⟨hb.1, hb.2.token, hb.2.finished⟩
  | abandon | closeServer => exact Alike.ages (.of_eq (le_refl _) ⟨rfl, rfl, rfl, rfl⟩)

/-- From a finished close on, the streams of the session are closed and stay as they were. -/
theorem Valid.sealed (hv : Valid S config s) (h : s.sessions[c]? = some session)
    (hdone : session.closing = some [])
    (hstream : s.streams[r]? = some stream) (howner : stream.session = c) :
    stream.closed = true := by
  rw [← Bool.not_eq_false]
  intro hopen
  obtain ⟨holder, hholder, htracked⟩ := (hv.stream hstream).tracked
  rw [howner, h] at hholder
  cases hholder
  have hmem := (hv.session h).covered hdone (htracked hopen)
  cases hmem

theorem run_sealed (hv : Valid S config s) (h : s.sessions[c]? = some session)
    (hdone : session.closing = some []) (hrun : ReflTransGen (Step S config) s t)
    (hstream : t.streams[r]? = some stream) (howner : stream.session = c) :
    stream.closed = true ∧ s.streams[r]? = some stream := by
  -- the invariant of the run: `c` is still finished, and its streams are those of `s`
  have hinv : Valid S config t ∧ (∃ after, t.sessions[c]? = some after ∧ after.closing = some []) ∧
      ∀ {r : Nat} {stream : Stream}, t.streams[r]? = some stream → stream.session = c →
        s.streams[r]? = some stream := by
    clear hstream howner
    induction hrun with
    | refl => exact ⟨hv, ⟨session, h, hdone⟩, fun hstream _ => hstream⟩
    | @tail u _ _ hstep ih =>
      obtain ⟨hvalid, ⟨after, hafter, hfinished⟩, hsame⟩ := ih
      have hages := hstep.ages hvalid
      obtain ⟨next, hnext, -, hdone'⟩ := hages.sessions hafter
      refine ⟨valid_step hstep hvalid, ⟨next, hnext, hdone' hfinished⟩, ?_⟩
      intro r stream hstream howner
      cases hbefore : u.streams[r]? with
      | some before =>
        obtain ⟨_, hstream', hbecomes⟩ := hages.streams hbefore
        obtain rfl := Option.mem_unique hstream hstream'
        have hc : before.session = c := hbecomes.session.symm.trans howner
        rw [hbecomes.closed (hvalid.sealed hafter hfinished hbefore hc)]
        exact hsame hbefore hc
      | none =>
        obtain ⟨owner, howner', hopen⟩ := hages.added hbefore hstream
        rw [howner, hafter] at howner'
        cases howner'
        rw [hfinished] at hopen
        cases hopen
  have hbefore := hinv.2.2 hstream howner
  exact ⟨hv.sealed h hdone hbefore howner, hbefore⟩

/-! ## Safety -/

end Valid

/-- Secrets of different lengths, kept in the clear. -/
def plainSecrets : Secrets String where
  secret n := String.ofList (List.replicate n 'a')
  secret_injective := fun m n h => by
    simpa using congrArg String.length h
  sum256 := id
  sum256_injective := Function.injective_id

def smallConfig : Config := ⟨1, 1, "relay"⟩

/-- A session with one claimed stream, closed to the end. -/
def closedSession : Registry String :=
  ((((new.register plainSecrets smallConfig "node").openStream plainSecrets smallConfig "node").claim
    plainSecrets "" "a").cancel 0).closeSession plainSecrets 0 |>.closeNext 0 0 []

theorem closedSession_reachable : Reachable plainSecrets smallConfig closedSession := by
  refine .tail (.tail (.tail (.tail (.tail (.tail .refl
    (.register "node" (by decide))) (.openStream "node")) (.claim "" "a")) (.cancel 0))
    (.closeSession 0 _ rfl rfl rfl)) (.closeNext 0 0 [] _ rfl rfl)

end Registry

end ConveneWire.Relay
