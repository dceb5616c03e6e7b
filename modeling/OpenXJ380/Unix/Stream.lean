import OpenXJ380.Errno
import OpenXJ380.Lib.LinearBuffer
import OpenXJ380.Lib.Transition

/-! # Connected stream sockets

What is written at one end goes to the ring of the other. A call is cut where it takes a lock.
-/

namespace OpenXJ380.Unix.Stream

open Function

open Errno RingBuffer Transition

abbrev Byte := UInt8

def UNIX_RING_SIZE : Nat := 65536

/-- What these calls use of a `struct unix_sock`: `ring` is `in_buf`, `in_head` and `in_tail`, `hasPeer` that `peer` is
the other end, and `freed` that `unix_sock_free` has been called. -/
structure StreamSock where
  ring : RingBuffer.Ring Byte
  closed : Bool
  hasPeer : Bool
  refcount : Nat
  freed : Bool

def ringReadable (sk : StreamSock) : Nat := used UNIX_RING_SIZE sk.ring

def ringWritable (sk : StreamSock) : Nat :=
  let freeSpace := UNIX_RING_SIZE - ringReadable sk
  if freeSpace > 1 then freeSpace - 1 else 0

def ringWrite (sk : StreamSock) (data : List Byte) : StreamSock × Nat :=
  let n := min data.length (ringWritable sk)
  ({ sk with ring := pushAll UNIX_RING_SIZE sk.ring (data.take n) }, n)

def ringRead (sk : StreamSock) (len : Nat) : List Byte × StreamSock :=
  let n := min len (ringReadable sk)
  ((popAll UNIX_RING_SIZE sk.ring n).1, { sk with ring := (popAll UNIX_RING_SIZE sk.ring n).2 })

/-- `while (total < size)`, from where `src` is left, up to a return or to the next `spin_unlock`. -/
def writeLoop (peer : StreamSock) (src : List Byte) (total : Nat) : StreamSock × Nat × Option Int :=
  if src = [] then (peer, total, some total)
  else if (ringWrite peer src).2 = 0 then
    if peer.closed then (peer, total, some (-EPIPE)) else (peer, total, none)
  else
    writeLoop (ringWrite peer src).1 (src.drop (ringWrite peer src).2) (total + (ringWrite peer src).2)
termination_by src.length
decreasing_by
  rename_i hSome _
  rw [List.length_drop]
  have hPos := List.length_pos_of_ne_nil hSome
  omega

def readSection (sk : StreamSock) (size : Nat) : Option (List Byte × StreamSock) :=
  if ringReadable sk = 0 then if sk.closed || !sk.hasPeer then some ([], sk) else none
  else some (ringRead sk size)

inductive Side where
  | client
  | server
deriving DecidableEq

def Side.other : Side → Side
  | .client => .server
  | .server => .client

/-- `unix_close` under the locks of the socket and of its peer. -/
def closeSection (sock : Side → StreamSock) (sk : Side) : Side → StreamSock := fun side =>
  if side = sk then { sock sk with closed := true, hasPeer := false }
  else if (sock sk).hasPeer then { sock side with closed := true, hasPeer := false }
  else sock side

/-- `sk->refcount--`, and `unix_sock_free` for the last one. -/
def dropReference (sk : StreamSock) : StreamSock :=
  { sk with refcount := sk.refcount - 1, freed := sk.freed || sk.refcount - 1 = 0 }

abbrev ThreadId := Nat

inductive Pc where
  | idle
  | writing (peer : Side) (buf : List Byte) (total : Nat)
  | reading (sk : Side) (size : Nat)
  | closing (sk : Side)

/-- The two sockets, the descriptors, and the threads; then what has been placed in each ring and returned from it, and
for each write that has returned how much it has placed, with what it returned. -/
structure World where
  sock : Side → StreamSock
  opened : Side → Bool
  pc : ThreadId → Pc
  placed : Side → List Byte
  returned : Side → List Byte
  results : List (Nat × Int)

def World.init (memory : Side → Nat → Byte) (refcount : Side → Nat) : World where
  sock := fun side =>
    { ring := ⟨memory side, 0, 0⟩, closed := false, hasPeer := true, refcount := refcount side, freed := false }
  opened := fun _ => true
  pc := fun _ => .idle
  placed := fun _ => []
  returned := fun _ => []
  results := []

def World.setPc (w : World) (t : ThreadId) (pc : Pc) : World := { w with pc := update w.pc t pc }

def World.setSock (w : World) (sk : Side) (s : StreamSock) : World := { w with sock := update w.sock sk s }

def World.write (w : World) (t : ThreadId) (peer : Side) (buf : List Byte) (total : Nat) : World :=
  let r := writeLoop (w.sock peer) (buf.drop total) total
  { w with
    sock := update w.sock peer r.1
    placed := update w.placed peer (w.placed peer ++ (buf.drop total).take (r.2.1 - total))
    results := w.results ++ (r.2.2.map fun ret => (r.2.1, ret)).toList
    pc := update w.pc t (if r.2.2.isSome then .idle else .writing peer buf r.2.1) }

def World.read (w : World) (t : ThreadId) (sk : Side) (bytes : List Byte) (s : StreamSock) : World :=
  { w with
    sock := update w.sock sk s
    returned := update w.returned sk (w.returned sk ++ bytes)
    pc := update w.pc t .idle }

def World.close (w : World) (t : ThreadId) (sk : Side) : World :=
  { w with
    sock := closeSection w.sock sk
    opened := update w.opened sk false
    pc := update w.pc t (.closing sk) }

inductive Act where
  | callWrite (t : ThreadId) (sk : Side) (buf : List Byte)
  | writeSection (t : ThreadId)
  | callRead (t : ThreadId) (sk : Side) (size : Nat)
  | readSection (t : ThreadId)
  | shutdown (sk : Side)
  | close (t : ThreadId) (sk : Side)
  | drop (t : ThreadId)

inductive Acts : World → Act → World → Prop
  | writeFails {w : World} {t : ThreadId} {sk : Side} {buf : List Byte} (hOpen : w.opened sk = true)
      (hIdle : w.pc t = .idle) (hPeer : (w.sock sk).hasPeer = false) :
      Acts w (.callWrite t sk buf) { w with results := w.results ++ [(0, -EPIPE)] }
  | callWrite {w : World} {t : ThreadId} {sk : Side} {buf : List Byte} (hOpen : w.opened sk = true)
      (hIdle : w.pc t = .idle) (hPeer : (w.sock sk).hasPeer = true) :
      Acts w (.callWrite t sk buf) (w.setPc t (.writing sk.other buf 0))
  | writeSection {w : World} {t : ThreadId} {peer : Side} {buf : List Byte} {total : Nat}
      (hWriting : w.pc t = .writing peer buf total) : Acts w (.writeSection t) (w.write t peer buf total)
  | callRead {w : World} {t : ThreadId} {sk : Side} {size : Nat} (hOpen : w.opened sk = true) (hIdle : w.pc t = .idle) :
      Acts w (.callRead t sk size) (w.setPc t (.reading sk size))
  | readWaits {w : World} {t : ThreadId} {sk : Side} {size : Nat} (hReading : w.pc t = .reading sk size)
      (hWaits : readSection (w.sock sk) size = none) : Acts w (.readSection t) w
  | readSection {w : World} {t : ThreadId} {sk : Side} {size : Nat} {bytes : List Byte} {s : StreamSock}
      (hReading : w.pc t = .reading sk size) (hReturns : readSection (w.sock sk) size = some (bytes, s)) :
      Acts w (.readSection t) (w.read t sk bytes s)
  | shutdown {w : World} {sk : Side} (hOpen : w.opened sk = true) :
      Acts w (.shutdown sk) (w.setSock sk { w.sock sk with closed := true })
  | close {w : World} {t : ThreadId} {sk : Side} (hOpen : w.opened sk = true) (hIdle : w.pc t = .idle) :
      Acts w (.close t sk) (w.close t sk)
  | drop {w : World} {t : ThreadId} {sk : Side} (hClosing : w.pc t = .closing sk) :
      Acts w (.drop t) ((w.setSock sk (dropReference (w.sock sk))).setPc t .idle)

def streamSystem : System World Act := ⟨Acts⟩

/-- It is between two sections of a write to the socket, or of a read of it. -/
def Pc.Uses : Pc → Side → Prop
  | .writing peer _ _, sk => peer = sk
  | .reading reader _, sk => reader = sk
  | _, _ => False

/-- A write that does not fit a ring that is closed finds it full before it has placed anything, and the last reference
of a socket is dropped while nobody uses it. -/
def Careful (w : World) : Act → Prop
  | .writeSection t => ∀ peer buf total, w.pc t = .writing peer buf total → (w.sock peer).closed = true →
      buf.length - total ≤ ringWritable (w.sock peer) ∨ total = 0 ∧ ringWritable (w.sock peer) = 0
  | .drop t => ∀ sk, w.pc t = .closing sk → (w.sock sk).refcount ≤ 1 → ∀ j, ¬ (w.pc j).Uses sk
  | _ => True

structure FifoStream (w : World) : Prop where
  bounded : ∀ sk, ringReadable (w.sock sk) ≤ UNIX_RING_SIZE - 1
  fifo : ∀ sk, w.returned sk ++ contents UNIX_RING_SIZE (w.sock sk).ring = w.placed sk
  starts : ∀ sk, w.opened sk = true → (w.sock sk).freed = false
  unfreed : ∀ t peer buf total, w.pc t = .writing peer buf total → (w.sock peer).freed = false
  honest : ∀ placed ret, (placed, ret) ∈ w.results → (0 < placed → ret = placed) ∧ (ret < 0 → placed = 0)

/-! # A stream is a FIFO -/

section

variable {sk peer : StreamSock} {data src : List Byte} {total : Nat}

theorem ringReadable_lt (h : sk.ring.Fits UNIX_RING_SIZE) : ringReadable sk < UNIX_RING_SIZE := used_lt h

theorem ringWritable_eq (h : sk.ring.Fits UNIX_RING_SIZE) : ringWritable sk + ringReadable sk + 1 = UNIX_RING_SIZE := by
  have hLess := ringReadable_lt h
  simp only [ringWritable]
  split <;> omega

theorem ringWrite_spec (h : sk.ring.Fits UNIX_RING_SIZE) :
    (ringWrite sk data).1.ring.Fits UNIX_RING_SIZE ∧
      contents UNIX_RING_SIZE (ringWrite sk data).1.ring =
        contents UNIX_RING_SIZE sk.ring ++ data.take (ringWrite sk data).2 ∧
      ringWritable (ringWrite sk data).1 + (ringWrite sk data).2 = ringWritable sk := by
  have hEq := ringWritable_eq h
  have hRoom : used UNIX_RING_SIZE sk.ring + (data.take (min data.length (ringWritable sk))).length <
      UNIX_RING_SIZE := by
    have hLess : ringReadable sk + min data.length (ringWritable sk) < UNIX_RING_SIZE := by omega
    rwa [List.length_take_of_le (min_le_left _ _)]
  obtain ⟨hFits, hContents⟩ := pushAll_spec h hRoom
  refine ⟨hFits, hContents, ?_⟩
  have hAfter := @ringWritable_eq (ringWrite sk data).1 hFits
  have hUsed : ringReadable (ringWrite sk data).1 = ringReadable sk + min data.length (ringWritable sk) := by
    rw [ringReadable, ← length_contents, ringWrite, hContents, List.length_append, length_contents,
      List.length_take_of_le (min_le_left _ _)]
    rfl
  change _ + min data.length (ringWritable sk) = _
  omega

/-- What a section places is as much as fits; it returns when that is all, or when the socket is closed. -/
structure Section (peer : StreamSock) (src : List Byte) (total : Nat) (r : StreamSock × Nat × Option Int) : Prop where
  rest : ∃ ring, r.1 = { peer with ring := ring }
  fits : r.1.ring.Fits UNIX_RING_SIZE
  contents : contents UNIX_RING_SIZE r.1.ring = contents UNIX_RING_SIZE peer.ring ++ src.take (r.2.1 - total)
  count : r.2.1 = total + min src.length (ringWritable peer)
  returns : r.2.2 = if src.length ≤ ringWritable peer then some (r.2.1 : Int)
    else if peer.closed then some (-EPIPE) else none

theorem Section.full (h : peer.ring.Fits UNIX_RING_SIZE) (hSome : src ≠ []) (hFull : ringWritable peer = 0) :
    Section peer src total (peer, total, if peer.closed then some (-EPIPE) else none) := by
  refine ⟨⟨peer.ring, rfl⟩, h, ?_, ?_, ?_⟩
  · rw [Nat.sub_self, List.take_zero, List.append_nil]
  · rw [hFull, Nat.min_zero, Nat.add_zero]
  · have hPos := List.length_pos_of_ne_nil hSome
    rw [hFull, if_neg (not_le.mpr hPos)]

theorem writeLoop_section (h : peer.ring.Fits UNIX_RING_SIZE) : Section peer src total (writeLoop peer src total) := by
  fun_induction writeLoop peer src total with
  | case1 peer total =>
    refine ⟨⟨peer.ring, rfl⟩, h, ?_, ?_, ?_⟩
    · rw [List.take_nil, List.append_nil]
    · rw [List.length_nil, Nat.zero_min, Nat.add_zero]
    · rw [List.length_nil, if_pos (Nat.zero_le _)]
  | case2 peer src total hSome hNone hClosed =>
    have hPos := List.length_pos_of_ne_nil hSome
    have hFull := @Section.full peer src total h hSome (by change min _ _ = 0 at hNone; omega)
    rwa [if_pos hClosed] at hFull
  | case3 peer src total hSome hNone hOpen =>
    have hPos := List.length_pos_of_ne_nil hSome
    have hFull := @Section.full peer src total h hSome (by change min _ _ = 0 at hNone; omega)
    rwa [if_neg hOpen] at hFull
  | case4 peer src total hSome hMore ih =>
    obtain ⟨hFits, hContents, hWritable⟩ := @ringWrite_spec peer src h
    obtain ⟨⟨ring, hRing⟩, hFits', hContents', hCount, hReturns⟩ := ih hFits
    have hPlaced : (ringWrite peer src).2 = min src.length (ringWritable peer) := rfl
    have hClosed : (ringWrite peer src).1.closed = peer.closed := rfl
    have hDrop : (src.drop (ringWrite peer src).2).length = src.length - (ringWrite peer src).2 := List.length_drop
    refine ⟨⟨ring, hRing⟩, hFits', ?_, ?_, ?_⟩
    · have hSplit : (writeLoop (ringWrite peer src).1 (src.drop (ringWrite peer src).2)
          (total + (ringWrite peer src).2)).2.1 - total = (ringWrite peer src).2 +
          ((writeLoop (ringWrite peer src).1 (src.drop (ringWrite peer src).2)
            (total + (ringWrite peer src).2)).2.1 - (total + (ringWrite peer src).2)) := by
        omega
      rw [hContents', hContents, hSplit, List.take_add, List.append_assoc]
    · rw [hCount, hDrop]
      omega
    · rw [hReturns, hDrop, hClosed]
      have hSame : src.length - (ringWrite peer src).2 ≤ ringWritable (ringWrite peer src).1 ↔
          src.length ≤ ringWritable peer := by
        omega
      simp only [hSame]

end

structure Flowing (w : World) : Prop where
  fits : ∀ sk, (w.sock sk).ring.Fits UNIX_RING_SIZE
  exact : ∀ sk, w.returned sk ++ contents UNIX_RING_SIZE (w.sock sk).ring = w.placed sk
  symmetric : ∀ sk, (w.sock sk).hasPeer = (w.sock sk.other).hasPeer
  freed : ∀ sk, (w.sock sk).freed = true → (w.sock sk).hasPeer = false ∧ w.opened sk = false
  closing : ∀ t sk, w.pc t = .closing sk → (w.sock sk).hasPeer = false ∧ w.opened sk = false
  writing : ∀ t peer buf total, w.pc t = .writing peer buf total → (w.sock peer).freed = false
  honest : ∀ placed ret, (placed, ret) ∈ w.results → (0 < placed → ret = placed) ∧ (ret < 0 → placed = 0)

section

variable {w w' : World} {t : ThreadId} {sk peer : Side} {buf : List Byte} {total size : Nat}

theorem Side.eq_other_of_ne {a b : Side} (h : a ≠ b) : a = b.other := by
  cases a <;> cases b <;> first | rfl | exact absurd rfl h

theorem Flowing.frame (h : Flowing w) (hFits : ∀ j, (w'.sock j).ring.Fits UNIX_RING_SIZE)
    (hExact : ∀ j, w'.returned j ++ contents UNIX_RING_SIZE (w'.sock j).ring = w'.placed j)
    (hOpened : ∀ j, w'.opened j = w.opened j)
    (hSame : ∀ j, (w'.sock j).hasPeer = (w.sock j).hasPeer ∧ (w'.sock j).freed = (w.sock j).freed)
    (hPc : ∀ j, w'.pc j = w.pc j ∨ (∀ sk, w'.pc j ≠ .closing sk) ∧
      ∀ peer buf total, w'.pc j = .writing peer buf total → (w.sock peer).freed = false)
    (hHonest : ∀ placed ret, (placed, ret) ∈ w'.results → (0 < placed → ret = placed) ∧ (ret < 0 → placed = 0)) :
    Flowing w' where
  fits := hFits
  exact := hExact
  symmetric j := (hSame j).1.trans ((h.symmetric j).trans (hSame j.other).1.symm)
  freed j hFreed := by
    rw [(hSame j).1, hOpened]
    exact h.freed j ((hSame j).2 ▸ hFreed)
  closing j sk hj := by
    rw [(hSame sk).1, hOpened]
    obtain hOld | ⟨hNot, -⟩ := hPc j
    · exact h.closing j sk (hOld ▸ hj)
    · exact absurd hj (hNot sk)
  writing j peer buf total hj := by
    rw [(hSame peer).2]
    obtain hOld | ⟨-, hNew⟩ := hPc j
    · exact h.writing j peer buf total (hOld ▸ hj)
    · exact hNew peer buf total hj
  honest := hHonest

theorem Section.honest {r : StreamSock × Nat × Option Int} {s : StreamSock} {src : List Byte} {ret : Int}
    (h : Section s src total r) (hReturns : r.2.2 = some ret)
    (hCareful : s.closed → src.length ≤ ringWritable s ∨ total = 0 ∧ ringWritable s = 0) :
    (0 < r.2.1 → ret = r.2.1) ∧ (ret < 0 → r.2.1 = 0) := by
  rw [h.returns] at hReturns
  split at hReturns
  · cases hReturns
    exact ⟨fun _ => rfl, (absurd · (Int.not_lt.mpr (Int.natCast_nonneg _)))⟩
  next hLong =>
  split at hReturns
  · next hClosed =>
    obtain ⟨hTotal, hFull⟩ := (hCareful hClosed).resolve_left hLong
    have hNone : r.2.1 = 0 := by
      rw [h.count, hTotal, hFull, Nat.min_zero]
    exact ⟨fun hPos => absurd hNone hPos.ne', fun _ => hNone⟩
  · cases hReturns

theorem Flowing.write (h : Flowing w) (hWriting : w.pc t = .writing peer buf total)
    (hCareful : Careful w (.writeSection t)) : Flowing (w.write t peer buf total) := by
  have hSection := @writeLoop_section (w.sock peer) (buf.drop total) total (h.fits peer)
  have hCareful := hCareful peer buf total hWriting
  rw [← List.length_drop] at hCareful
  have hUnfreed := h.writing t peer buf total hWriting
  rw [World.write]
  revert hSection
  generalize writeLoop (w.sock peer) (buf.drop total) total = r
  intro hSection
  obtain ⟨ring, hRing⟩ := hSection.rest
  have hSock : ∀ j, update w.sock peer r.1 j = if j = peer then r.1 else w.sock j := fun j => update_apply _ _ _ _
  refine h.frame ?_ ?_ (fun _ => rfl) ?_ ?_ ?_
  · intro j
    change (update w.sock peer r.1 j).ring.Fits UNIX_RING_SIZE
    rw [hSock]
    split
    · exact hSection.fits
    · exact h.fits j
  · intro j
    change w.returned j ++ contents UNIX_RING_SIZE (update w.sock peer r.1 j).ring =
      update w.placed peer (w.placed peer ++ (buf.drop total).take (r.2.1 - total)) j
    rw [hSock, update_apply]
    split
    · next hSame => rw [hSection.contents, ← List.append_assoc, hSame, h.exact]
    · exact h.exact j
  · intro j
    change (update w.sock peer r.1 j).hasPeer = _ ∧ (update w.sock peer r.1 j).freed = _
    grind
  · intro j
    change update w.pc t _ j = w.pc j ∨ (∀ sk, update w.pc t _ j ≠ .closing sk) ∧
      ∀ p b n, update w.pc t _ j = .writing p b n → _
    rw [update_apply]
    split
    · refine .inr ⟨?_, ?_⟩
      · intro sk
        split <;> exact nofun
      · rintro p b n hPc
        split at hPc <;> cases hPc
        exact hUnfreed
    · exact .inl rfl
  · intro placed ret hMem
    obtain hOld | hNew := List.mem_append.mp hMem
    · exact h.honest placed ret hOld
    · cases hReturns : r.2.2 with
      | none =>
        rw [hReturns] at hNew
        cases hNew
      | some ret' =>
        rw [hReturns] at hNew
        cases List.mem_singleton.mp hNew
        exact hSection.honest hReturns hCareful

theorem Flowing.setPc (h : Flowing w) {pc : Pc} (hClosing : ∀ sk, pc ≠ .closing sk)
    (hWriting : ∀ peer buf total, pc = .writing peer buf total → (w.sock peer).freed = false) :
    Flowing (w.setPc t pc) := by
  refine h.frame h.fits h.exact (fun _ => rfl) (fun _ => ⟨rfl, rfl⟩) ?_ h.honest
  intro j
  have hPc : (w.setPc t pc).pc j = if j = t then pc else w.pc j := update_apply _ _ _ _
  rw [hPc]
  split
  · exact .inr ⟨hClosing, hWriting⟩
  · exact .inl rfl

theorem Flowing.callWrite (h : Flowing w) (hPeer : (w.sock sk).hasPeer) :
    Flowing (w.setPc t (.writing sk.other buf 0)) := by
  refine h.setPc nofun ?_
  rintro p b n hPc
  cases hPc
  cases hFreed : (w.sock sk.other).freed with
  | false => rfl
  | true =>
    have hNone := (h.freed sk.other hFreed).1
    rw [← h.symmetric] at hNone
    exact nomatch hNone.symm.trans hPeer

theorem readSection_spec {sk s : StreamSock} {bytes : List Byte} (h : sk.ring.Fits UNIX_RING_SIZE)
    (hReturns : readSection sk size = some (bytes, s)) :
    s.ring.Fits UNIX_RING_SIZE ∧ contents UNIX_RING_SIZE sk.ring = bytes ++ contents UNIX_RING_SIZE s.ring ∧
      ∃ ring, s = { sk with ring := ring } := by
  rw [readSection] at hReturns
  split at hReturns
  · split at hReturns
    · cases hReturns
      exact ⟨h, rfl, sk.ring, rfl⟩
    · cases hReturns
  · cases hReturns
    obtain ⟨hFits, -, hContents⟩ := @popAll_spec _ _ _ (min size (ringReadable sk)) h (min_le_right _ _)
    exact ⟨hFits, hContents, _, rfl⟩

theorem Flowing.read (h : Flowing w) {bytes : List Byte} {s : StreamSock}
    (hReturns : readSection (w.sock sk) size = some (bytes, s)) : Flowing (w.read t sk bytes s) := by
  obtain ⟨hFits, hContents, ring, hRing⟩ := readSection_spec (h.fits sk) hReturns
  have hSock : ∀ j, (w.read t sk bytes s).sock j = if j = sk then s else w.sock j := fun j => update_apply _ _ _ _
  have hPc : ∀ j, (w.read t sk bytes s).pc j = if j = t then .idle else w.pc j := fun j => update_apply _ _ _ _
  refine h.frame ?_ ?_ (fun _ => rfl) ?_ ?_ h.honest
  · intro j
    rw [hSock]
    split
    · exact hFits
    · exact h.fits j
  · intro j
    change update w.returned sk (w.returned sk ++ bytes) j ++ _ = w.placed j
    rw [hSock, update_apply]
    split
    · next hSame => rw [List.append_assoc, ← hContents, h.exact, hSame]
    · exact h.exact j
  · grind
  · intro j
    rw [hPc]
    split
    · exact .inr ⟨nofun, nofun⟩
    · exact .inl rfl

theorem Flowing.close (h : Flowing w) : Flowing (w.close t sk) := by
  have hRing : ∀ j, (closeSection w.sock sk j).ring = (w.sock j).ring ∧
      (closeSection w.sock sk j).freed = (w.sock j).freed := by
    intro j
    rw [closeSection]
    split
    · next hSame => rw [hSame]; exact ⟨rfl, rfl⟩
    · split <;> exact ⟨rfl, rfl⟩
  have hPeer : ∀ j, (closeSection w.sock sk j).hasPeer = false := by
    intro j
    rw [closeSection]
    split
    · rfl
    next hNe =>
    split
    · rfl
    next hNone =>
    rw [Side.eq_other_of_ne hNe, ← h.symmetric]
    exact Bool.eq_false_iff.mpr hNone
  have hOpened : ∀ j, update w.opened sk false j = if j = sk then false else w.opened j := fun j => update_apply _ _ _ _
  have hPc : ∀ j, update w.pc t (.closing sk) j = if j = t then .closing sk else w.pc j := fun j => update_apply _ _ _ _
  constructor
  · exact fun j => (hRing j).1 ▸ h.fits j
  · intro j
    change w.returned j ++ contents UNIX_RING_SIZE (closeSection w.sock sk j).ring = w.placed j
    rw [(hRing j).1]
    exact h.exact j
  · exact fun j => (hPeer j).trans (hPeer j.other).symm
  · intro j hFreed
    have hOld := h.freed j ((hRing j).2 ▸ hFreed)
    refine ⟨hPeer j, ?_⟩
    change update w.opened sk false j = false
    grind
  · intro j side hj
    have hOld := h.closing j side
    refine ⟨hPeer side, ?_⟩
    change update w.opened sk false side = false
    change update w.pc t (.closing sk) j = .closing side at hj
    grind
  · intro j p b n hj
    change update w.pc t (.closing sk) j = .writing p b n at hj
    change (closeSection w.sock sk p).freed = false
    rw [(hRing p).2]
    have hOld := h.writing j p b n
    grind
  · exact h.honest

theorem Flowing.drop (h : Flowing w) (hClosing : w.pc t = .closing sk) (hCareful : Careful w (.drop t)) :
    Flowing ((w.setSock sk (dropReference (w.sock sk))).setPc t .idle) := by
  obtain ⟨hPeer, hClosed⟩ := h.closing t sk hClosing
  have hCareful := hCareful sk hClosing
  refine .setPc ?_ nofun nofun
  have hSock : ∀ j, (w.setSock sk (dropReference (w.sock sk))).sock j =
      if j = sk then dropReference (w.sock sk) else w.sock j := fun j => update_apply _ _ _ _
  have hSame : ∀ j, ((w.setSock sk (dropReference (w.sock sk))).sock j).ring = (w.sock j).ring ∧
      ((w.setSock sk (dropReference (w.sock sk))).sock j).hasPeer = (w.sock j).hasPeer := by
    grind [dropReference]
  constructor
  · exact fun j => (hSame j).1 ▸ h.fits j
  · intro j
    rw [(hSame j).1]
    exact h.exact j
  · exact fun j => (hSame j).2.trans ((h.symmetric j).trans (hSame j.other).2.symm)
  · intro j hFreed
    rw [hSock] at hFreed
    rw [(hSame j).2]
    split at hFreed
    · next hj => exact hj.symm ▸ ⟨hPeer, hClosed⟩
    · exact h.freed j hFreed
  · intro j side hj
    rw [(hSame side).2]
    exact h.closing j side hj
  · intro j p b n hj
    have hUses := fun hLast => hCareful hLast j
    rw [show w.pc j = .writing p b n from hj] at hUses
    have hOld := h.writing j p b n hj
    rw [hSock]
    split
    · next hp =>
      subst hp
      have hMany : ¬ (w.sock p).refcount ≤ 1 := fun hLast => hUses hLast rfl
      have hLeft : (w.sock p).refcount - 1 ≠ 0 := by omega
      rw [dropReference, hOld, Bool.false_or]
      exact decide_eq_false hLeft
    · exact hOld
  · exact h.honest

theorem Flowing.shutdown (h : Flowing w) : Flowing (w.setSock sk { w.sock sk with closed := true }) := by
  have hSame : ∀ j, ((w.setSock sk { w.sock sk with closed := true }).sock j).ring = (w.sock j).ring ∧
      ((w.setSock sk { w.sock sk with closed := true }).sock j).hasPeer = (w.sock j).hasPeer ∧
      ((w.setSock sk { w.sock sk with closed := true }).sock j).freed = (w.sock j).freed := by
    intro j
    have hSock : (w.setSock sk { w.sock sk with closed := true }).sock j =
      if j = sk then { w.sock sk with closed := true } else w.sock j := update_apply _ _ _ _
    grind
  refine h.frame (fun j => (hSame j).1 ▸ h.fits j) ?_ (fun _ => rfl) (fun j => (hSame j).2) (fun _ => .inl rfl) h.honest
  intro j
  rw [(hSame j).1]
  exact h.exact j

theorem Flowing.step {a : Act} (hStep : Acts w a w') (hCareful : Careful w a) (h : Flowing w) : Flowing w' := by
  cases hStep with
  | writeFails hOpen hIdle hPeer =>
    refine { h with honest := ?_ }
    intro placed ret hMem
    obtain hOld | hNew := List.mem_append.mp hMem
    · exact h.honest placed ret hOld
    · cases List.mem_singleton.mp hNew
      exact ⟨(absurd · (lt_irrefl 0)), fun _ => rfl⟩
  | callWrite hOpen hIdle hPeer => exact h.callWrite hPeer
  | writeSection hWriting => exact h.write hWriting hCareful
  | callRead hOpen hIdle => exact h.setPc nofun nofun
  | readWaits hReading hWaits => exact h
  | readSection hReading hReturns => exact h.read hReturns
  | shutdown hOpen => exact h.shutdown
  | close hOpen hIdle => exact h.close
  | drop hClosing => exact h.drop hClosing hCareful

theorem Flowing.init (memory : Side → Nat → Byte) (refcount : Side → Nat) : Flowing (World.init memory refcount) where
  fits _ := ⟨show 0 < UNIX_RING_SIZE by decide, show 0 < UNIX_RING_SIZE by decide⟩
  exact _ := rfl
  symmetric _ := rfl
  freed _ hFreed := nomatch hFreed
  closing _ _ hClosing := nomatch hClosing
  writing _ _ _ _ hWriting := nomatch hWriting
  honest _ _ hMem := nomatch hMem

end

theorem stream_fifo {memory : Side → Nat → Byte} {refcount : Side → Nat} {acts : List Act} {w : World}
    (hRun : Run (streamSystem.restrict Careful) (World.init memory refcount) acts w) : FifoStream w := by
  have h : Flowing w :=
    hRun.invariant (fun _ _ _ hFlowing hStep => hFlowing.step hStep.2 hStep.1) (.init memory refcount)
  refine ⟨?_, h.exact, ?_, h.writing, h.honest⟩
  · exact fun sk => Nat.le_sub_one_of_lt (ringReadable_lt (h.fits sk))
  · intro sk hOpen
    cases hFreed : (w.sock sk).freed with
    | false => rfl
    | true => exact nomatch hOpen.symm.trans (h.freed sk hFreed).2

def fresh : World := World.init (fun _ _ => 0) fun _ => 1

theorem stream_fifo_written :
    FifoStream ((fresh.setPc 0 (.writing .server [1, 2] 0)).write 0 .server [1, 2] 0) := by
  have hCall : (streamSystem.restrict Careful).step fresh (.callWrite 0 .client [1, 2])
      (fresh.setPc 0 (.writing .server [1, 2] 0)) := ⟨trivial, Acts.callWrite rfl rfl rfl⟩
  have hCareful : Careful (fresh.setPc 0 (.writing .server [1, 2] 0)) (.writeSection 0) := by
    rintro peer buf total hWriting hClosed
    cases hWriting
    cases hClosed
  exact stream_fifo (((Run.nil (M := streamSystem.restrict Careful) fresh).snoc hCall).snoc
    ⟨hCareful, Acts.writeSection rfl⟩)

def tooMuch : List Byte := List.replicate UNIX_RING_SIZE 0

def shutDown : World := fresh.setSock .server { fresh.sock .server with closed := true }

def brokenWrite : World :=
  (shutDown.setPc 0 (.writing .server tooMuch 0)).write 0 .server tooMuch 0

def freedWrite : World :=
  let w := (fresh.setPc 0 (.writing .server [1] 0)).close 1 .server
  (w.setSock .server (dropReference (w.sock .server))).setPc 1 .idle

/-- An error after a ring full of bytes, and a write to a socket that has been freed. -/
theorem stream_not_honest :
    (Run streamSystem fresh [.shutdown .server, .callWrite 0 .client tooMuch, .writeSection 0] brokenWrite ∧
      (65535, -EPIPE) ∈ brokenWrite.results ∧ ¬ FifoStream brokenWrite) ∧
    Run streamSystem fresh [.callWrite 0 .client [1], .close 1 .server, .drop 1] freedWrite ∧
      ¬ FifoStream freedWrite := by
  have hSection := @writeLoop_section (shutDown.sock .server) (tooMuch.drop 0) 0 ⟨by decide, by decide⟩
  have hLength : (tooMuch.drop 0).length = 65536 := List.length_replicate
  have hRoom : ringWritable (shutDown.sock .server) = 65535 := by decide
  have hMem : (65535, -EPIPE) ∈ brokenWrite.results := by
    have hCount := hSection.count
    have hReturns := hSection.returns
    rw [hLength, hRoom] at hCount hReturns
    have hError : (writeLoop (shutDown.sock .server) (tooMuch.drop 0) 0).2.2 = some (-EPIPE) :=
      hReturns.trans ((if_neg (by decide)).trans (if_pos rfl))
    have hPlaced : (writeLoop (shutDown.sock .server) (tooMuch.drop 0) 0).2.1 = 65535 := hCount
    have hResult : brokenWrite.results = [] ++ [(65535, -EPIPE)] := by
      rw [← hPlaced, ← Option.toList_some, ← Option.map_some, ← hError]
      rfl
    rw [hResult]
    exact List.mem_singleton_self _
  refine ⟨⟨?_, hMem, ?_⟩, ?_, ?_⟩
  · have hShutdown : streamSystem.step fresh (.shutdown .server) shutDown := Acts.shutdown rfl
    have hCall : streamSystem.step shutDown (.callWrite 0 .client tooMuch)
        (shutDown.setPc 0 (.writing .server tooMuch 0)) := Acts.callWrite rfl rfl rfl
    exact (((Run.nil (M := streamSystem) fresh).snoc hShutdown).snoc hCall).snoc (Acts.writeSection rfl)
  · exact fun h => absurd ((h.honest 65535 (-EPIPE) hMem).2 (by decide)) (by decide)
  · have hCall : streamSystem.step fresh (.callWrite 0 .client [1]) (fresh.setPc 0 (.writing .server [1] 0)) :=
      Acts.callWrite rfl rfl rfl
    have hClose : streamSystem.step (fresh.setPc 0 (.writing .server [1] 0)) (.close 1 .server)
        ((fresh.setPc 0 (.writing .server [1] 0)).close 1 .server) := Acts.close rfl rfl
    have hDrop : streamSystem.step ((fresh.setPc 0 (.writing .server [1] 0)).close 1 .server) (.drop 1) freedWrite :=
      Acts.drop rfl
    exact (((Run.nil (M := streamSystem) fresh).snoc hCall).snoc hClose).snoc hDrop
  · exact fun h => absurd (h.unfreed 0 .server [1] 0 rfl) (by decide)

end OpenXJ380.Unix.Stream
