import Mathlib.Data.BitVec
import Mathlib.Data.Fin.VecNotation

/-! # Random bytes (`kernel/rng.cpp`)

A block of 64 bytes belongs to a key, a counter and a nonce. The last block of a
request gives its first bytes to the caller and its upper half to the key.
-/

namespace OpenXJ380.Rng

open Function

abbrev U32 := BitVec 32
abbrev U64 := BitVec 64

def rotl32 (value : U32) (count : Nat) : U32 := value <<< count ||| value >>> (32 - count)

abbrev Matrix := Fin 16 → U32

def quarterRound (s : Matrix) (a b c d : Fin 16) : Matrix :=
  let s := update s a (s a + s b)
  let s := update s d (rotl32 (s d ^^^ s a) 16)
  let s := update s c (s c + s d)
  let s := update s b (rotl32 (s b ^^^ s c) 12)
  let s := update s a (s a + s b)
  let s := update s d (rotl32 (s d ^^^ s a) 8)
  let s := update s c (s c + s d)
  update s b (rotl32 (s b ^^^ s c) 7)

def doubleRound (s : Matrix) : Matrix :=
  let s := quarterRound s 0 4 8 12
  let s := quarterRound s 1 5 9 13
  let s := quarterRound s 2 6 10 14
  let s := quarterRound s 3 7 11 15
  let s := quarterRound s 0 5 10 15
  let s := quarterRound s 1 6 11 12
  let s := quarterRound s 2 7 8 13
  quarterRound s 3 4 9 14

def rngChacha20Block (key : Fin 8 → U32) (counter : U32) (nonce : Fin 3 → U32) (i : Fin 64) : BitVec 8 :=
  let initial : Matrix :=
    ![0x61707865, 0x3320646e, 0x79622d32, 0x6b206574, key 0, key 1, key 2, key 3, key 4, key 5, key 6, key 7,
      counter, nonce 0, nonce 1, nonce 2]
  let state := doubleRound^[10] initial
  let word : Fin 16 := ⟨i / 4, by omega⟩
  ((state word + initial word) >>> (8 * (i.val % 4))).setWidth 8

/-- `reseeds` counts the calls of `reseedLocked`. -/
structure RngState where
  key : Fin 8 → U32
  nonce : Fin 3 → U32
  counter : U32
  bytesSinceReseed : Nat
  initialized : Bool
  reseeds : Nat

def boot : RngState where
  key := 0
  nonce := 0
  counter := 0
  bytesSinceReseed := 0
  initialized := false
  reseeds := 0

/-- What a reseed draws on: the time, two addresses, and the hardware where it answers. -/
structure Entropy where
  nanoTime : U64
  seedAddress : U64
  currentTask : U64
  hardwareRandom64 : Fin 8 → Option U64

def splitmix64 (state : U64) : U64 × U64 :=
  let state := state + 0x9e3779b97f4a7c15
  let z := (state ^^^ state >>> 30) * 0xbf58476d1ce4e5b9
  let z := (z ^^^ z >>> 27) * 0x94d049bb133111eb
  (state, z ^^^ z >>> 31)

def reseedWord (e : Entropy) (p : U64 × (Fin 8 → U32)) (i : Fin 8) : U64 × (Fin 8 → U32) :=
  let (seed, mixed) := splitmix64 (p.1 ^^^ (e.hardwareRandom64 i).getD 0)
  (seed, update p.2 i (p.2 i ^^^ (mixed.setWidth 32 ^^^ (mixed >>> 32).setWidth 32)))

def reseedLocked (e : Entropy) (s : RngState) : RngState :=
  let (seed, key) := (List.finRange 8).foldl (reseedWord e) (e.nanoTime ^^^ e.seedAddress ^^^ e.currentTask, s.key)
  let (seed, nonce) := splitmix64 seed
  { key := key
    nonce := ![s.nonce 0 ^^^ nonce.setWidth 32, s.nonce 1 ^^^ (nonce >>> 32).setWidth 32,
      s.nonce 2 ^^^ (splitmix64 seed).2.setWidth 32]
    counter := 1
    bytesSinceReseed := 0
    initialized := true
    reseeds := s.reseeds + 1 }

/-- A block that was computed; its first `chunk` bytes went to the caller. -/
structure Draw where
  reseeds : Nat
  key : Fin 8 → U32
  counter : U32
  nonce : Fin 3 → U32
  chunk : Nat

def Draw.block (d : Draw) : Fin 64 → BitVec 8 := rngChacha20Block d.key d.counter d.nonce

def mixKey (key : Fin 8 → U32) (block : Fin 64 → BitVec 8) (i : Fin 8) : U32 :=
  let byte (k : Fin 4) : U32 := (block ⟨32 + i.val * 4 + k.val, by omega⟩).setWidth 32
  key i ^^^ (byte 0 ||| byte 1 <<< 8 ||| byte 2 <<< 16 ||| byte 3 <<< 24)

/-- One round of the loop. The entropy is that of the next reseed. -/
def drawBlock (env : Nat → Entropy) (s : RngState) (length : Nat) : RngState × Draw :=
  let s := if s.counter = 0 ∨ s.bytesSinceReseed ≥ 1024 * 1024 then reseedLocked (env s.reseeds) s else s
  let draw : Draw := ⟨s.reseeds, s.key, s.counter, s.nonce, if length < 64 then length else 64⟩
  ({ s with
      key := if draw.chunk < 64 then mixKey s.key draw.block else s.key
      counter := s.counter + 1
      bytesSinceReseed := s.bytesSinceReseed + draw.chunk }, draw)

def drawLoop (env : Nat → Entropy) (s : RngState) (length : Nat) : RngState × List Draw :=
  if length = 0 then (s, [])
  else
    let (s, draw) := drawBlock env s length
    let (s, draws) := drawLoop env s (length - 64)
    (s, draw :: draws)
termination_by length

def getRandomBytes (env : Nat → Entropy) (s : RngState) (length : Nat) : RngState × List Draw :=
  if length = 0 then (s, [])
  else drawLoop env (if s.initialized then s else reseedLocked (env s.reseeds) s) length

def requests (env : Nat → Entropy) : RngState → List Nat → List Draw
  | _, [] => []
  | s, length :: lengths =>
    let (s, draws) := getRandomBytes env s length
    draws ++ requests env s lengths

abbrev Position := (Fin 8 → U32) × U32 × (Fin 3 → U32) × Nat

def Draw.position (d : Draw) (offset : Nat) : Position := (d.key, d.counter, d.nonce, offset)

def Draw.delivered (d : Draw) : List Position := (List.range d.chunk).map d.position

/-- The bytes that go into the key. -/
def Draw.mixed (d : Draw) : List Position := if d.chunk < 64 then (List.range' 32 32).map d.position else []

/-- Each block since the reseed has given out a byte. -/
structure Ready (s : RngState) : Prop where
  counter : s.counter.toNat ≤ s.bytesSinceReseed + 1
  few : s.bytesSinceReseed < 1024 * 1024 + 64

def RngState.stamp (s : RngState) : Nat := s.reseeds * 2 ^ 32 + s.counter.toNat

def Draw.stamp (d : Draw) : Nat := d.reseeds * 2 ^ 32 + d.counter.toNat

variable (env : Nat → Entropy) {s : RngState} {length : Nat} {d : Draw}

/-- From `s` to `s'` the blocks are computed in the order of their stamps. -/
structure Stamped (s s' : RngState) (draws : List Draw) : Prop where
  ready : Ready s'
  le : s.stamp ≤ s'.stamp
  sorted : draws.Pairwise fun d d' => d.stamp < d'.stamp
  within : ∀ d ∈ draws, s.stamp ≤ d.stamp ∧ d.stamp < s'.stamp

theorem Stamped.nil {s s' : RngState} (h : Ready s') (hLe : s.stamp ≤ s'.stamp) : Stamped s s' [] :=
  ⟨h, hLe, .nil, fun _ hd => nomatch hd⟩

theorem Stamped.append {s s' s'' : RngState} {draws draws' : List Draw} (h : Stamped s s' draws)
    (h' : Stamped s' s'' draws') : Stamped s s'' (draws ++ draws') := by
  refine ⟨h'.ready, h.le.trans h'.le, ?_, fun d hd => ?_⟩
  · refine List.pairwise_append.mpr ⟨h.sorted, h'.sorted, fun d hd d' hd' => ?_⟩
    exact (h.within d hd).2.trans_le (h'.within d' hd').1
  · obtain hd | hd := List.mem_append.mp hd
    · exact ⟨(h.within d hd).1, (h.within d hd).2.trans_le h'.le⟩
    · exact ⟨h.le.trans (h'.within d hd).1, (h'.within d hd).2⟩

/-- Without hardware, at time 0. -/
def silent : Entropy := ⟨0, 0, 0, fun _ => none⟩

end OpenXJ380.Rng
