import LearnInLinux.Basic
import LearnInLinux.Library.Decimal

/-!
# Peers of the chat servers

A UDP chat server knows its users by address and port, and keeps them in a hash table
under the text of both.
-/

namespace LearnInLinux
namespace Udp

open Decimal (natText natText_append_cons_inj natText_injective length_natText_le)

/-- The bytes of an IPv4 address. -/
structure Ip where
  a : UInt8
  b : UInt8
  c : UInt8
  d : UInt8
  deriving DecidableEq

/-- What a server uses of a `sockaddr_in`. -/
structure Endpoint where
  ip : Ip
  port : UInt16
  deriving DecidableEq

/-- The address in four numbers with dots in between. -/
def inet_ntoa (ip : Ip) : Bytes :=
  natText ip.a.toNat ++ 46 :: (natText ip.b.toNat ++ 46 ::
    (natText ip.c.toNat ++ 46 :: natText ip.d.toNat))

/-- The key of a user: `inet_ntoa(peer.sin_addr)`, `-` and the port in decimal. -/
def key (peer : Endpoint) : Bytes :=
  inet_ntoa peer.ip ++ 45 :: natText peer.port.toNat

theorem length_inet_ntoa_le (ip : Ip) : (inet_ntoa ip).length ≤ 15 := by
  have byte (value : UInt8) : (natText value.toNat).length ≤ 3 := by
    apply length_natText_le
    exact Nat.lt_trans value.toNat_lt (by decide)
  have inA := byte ip.a
  have inB := byte ip.b
  have inC := byte ip.c
  have inD := byte ip.d
  simp only [inet_ntoa, List.length_append, List.length_cons]
  omega

theorem length_key_le (peer : Endpoint) : (key peer).length ≤ 21 := by
  have inIp := length_inet_ntoa_le peer.ip
  have inPort : (natText peer.port.toNat).length ≤ 5 := by
    apply length_natText_le
    exact Nat.lt_trans peer.port.toNat_lt (by decide)
  simp only [key, List.length_append, List.length_cons]
  omega

/-- Different endpoints have different keys. -/
theorem key_injective : Function.Injective key := by
  rintro ⟨⟨a, b, c, d⟩, port⟩ ⟨⟨a', b', c', d'⟩, port'⟩ same
  simp only [key, inet_ntoa, List.append_assoc, List.cons_append] at same
  obtain ⟨sameA, restA⟩ := natText_append_cons_inj (by decide) same
  obtain ⟨sameB, restB⟩ := natText_append_cons_inj (by decide) restA
  obtain ⟨sameC, restC⟩ := natText_append_cons_inj (by decide) restB
  obtain ⟨sameD, samePort⟩ := natText_append_cons_inj (by decide) restC
  rw [UInt8.toNat_inj.mp sameA, UInt8.toNat_inj.mp sameB, UInt8.toNat_inj.mp sameC,
    UInt8.toNat_inj.mp sameD, UInt16.toNat_inj.mp (natText_injective samePort)]

/-! ## Tables of users -/

/-- `unordered_map<string, sockaddr_in>`, in some order. -/
abbrev Users := List (Bytes × Endpoint)

namespace Users

/-- `users[name] = peer` -/
def assign (name : Bytes) (peer : Endpoint) (users : Users) : Users :=
  if name ∈ users.map Prod.fst then
    users.map fun user => if user.1 = name then (name, peer) else user
  else users ++ [(name, peer)]

/-- `if (users.find(name) == users.end()) users.insert({name, peer})` -/
def insert (name : Bytes) (peer : Endpoint) (users : Users) : Users :=
  if name ∈ users.map Prod.fst then users else users ++ [(name, peer)]

/-- Every user has an entry of its own, under its own key. -/
structure Distinct (users : Users) : Prop where
  own : ∀ user ∈ users, user.1 = key user.2
  once : (users.map Prod.fst).Nodup

variable {users : Users} {peer other : Endpoint}

theorem distinct_nil : Distinct [] := by
  constructor
  · intro user present
    exact absurd present List.not_mem_nil
  · exact List.nodup_nil

theorem Distinct.keys (distinct : Distinct users) :
    users.map Prod.fst = (users.map Prod.snd).map key := by
  rw [List.map_map]
  apply List.map_congr_left
  exact distinct.own

theorem Distinct.endpoints (distinct : Distinct users) :
    (users.map Prod.snd).Nodup := by
  have once := distinct.once
  rw [distinct.keys] at once
  exact once.of_map key

theorem Distinct.key_mem_iff (distinct : Distinct users) :
    key peer ∈ users.map Prod.fst ↔ peer ∈ users.map Prod.snd := by
  rw [distinct.keys, List.mem_map]
  constructor
  · rintro ⟨other, present, same⟩
    rw [← key_injective same]
    exact present
  · exact fun present => ⟨peer, present, rfl⟩

/-- A known user is assigned what it already has. -/
theorem Distinct.assign_eq_insert (distinct : Distinct users) (peer : Endpoint) :
    users.assign (key peer) peer = users.insert (key peer) peer := by
  rw [assign, insert]
  split
  · refine (List.map_congr_left ?_).trans (List.map_id users)
    rintro ⟨name, other⟩ present
    have own := distinct.own _ present
    by_cases same : name = key peer
    · rw [if_pos same, ← same]
      rw [same] at own
      rw [key_injective own]
      rfl
    · exact if_neg same
  · rfl

theorem Distinct.insert (distinct : Distinct users) (peer : Endpoint) :
    Distinct (users.insert (key peer) peer) := by
  rw [Users.insert]
  split
  · exact distinct
  · rename_i absent
    constructor
    · intro user present
      rcases List.mem_append.mp present with before | isNew
      · exact distinct.own user before
      · rw [List.mem_singleton.mp isNew]
    · rw [List.map_append, List.nodup_append]
      refine ⟨distinct.once, List.nodup_singleton _, ?_⟩
      intro name before name' isNew same
      rw [List.mem_singleton.mp isNew] at same
      rw [same] at before
      exact absent before

theorem Distinct.mem_insert (distinct : Distinct users) :
    other ∈ (users.insert (key peer) peer).map Prod.snd ↔
      other ∈ users.map Prod.snd ∨ other = peer := by
  rw [Users.insert]
  split
  · rename_i present
    rw [distinct.key_mem_iff] at present
    constructor
    · exact .inl
    · rintro (before | rfl)
      · exact before
      · exact present
  · rw [List.map_append, List.mem_append, List.map_singleton, List.mem_singleton]

end Users

end Udp
end LearnInLinux
