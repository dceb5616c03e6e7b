import OpenXJ380.Device.Model
import OpenXJ380.Lib.Transition

/-! # The device table and the identifiers

What a deletion clears is a copy of the entry. As long as only devices that are not
there are deleted, and the first identifier is not in use then, the table agrees with
the identifiers.
-/

namespace OpenXJ380.Device

open Function

open Transition Vfs

variable {ψ : Type}

inductive Act where
  | regist (path : Option Text) (vd : DeviceT) (id : Option Nat)
  | delete (vdiskid : Int) (locked : Bool)
  | mount (node : NodeId)
  | transfer (i : Nat)

inductive Acts (env : Callbacks ψ) (s : State ψ) : Act → State ψ → Prop
  | regist (path : Option Text) (vd : DeviceT) :
      Acts env s (.regist path vd (registDevice env path vd s).2.id) (registDevice env path vd s).1
  | delete {s' : State ψ} (vdiskid : Int) (locked : Bool) (hDelete : deleteDevice env vdiskid locked s = some s') :
      Acts env s (.delete vdiskid locked) s'
  | mount (node : NodeId) : Acts env s (.mount node) (devfsMount env node s)
  | transfer (i : Nat) (hPresent : (s.ctl i).flag ≠ 0) :
      Acts env s (.transfer i) { s with bounce := update s.bounce i true }

def deviceSystem (env : Callbacks ψ) : System (State ψ) Act where
  step := Acts env

/-- A node below `/dev` has a handle for the entry. -/
def Refers (s : State ψ) (i : Nat) : Prop :=
  ∃ root parent n h, s.devfsRoot = some root ∧ n ∈ (s.vfs.tree.nodes parent).child ∧
    root ∈ ancestors s.vfs.tree s.vfs.tree.allocated n ∧ (s.vfs.tree.nodes n).handle = some h ∧
    (s.vfs.tree.store.handles h).device = some i

/-- The entries in use are those whose identifier is allocated, and no path is freed twice. -/
def Consistent (s : State ψ) : Prop :=
  (∀ i < devices, (s.ctl i).flag ≠ 0 ↔ s.allocator.bitmap i = true) ∧ s.freed.Nodup

/-- An identifier is handed out for no device that is there; a device that is not there is not deleted again, and one
that is deleted is not there any more. -/
def Rightly (s : State ψ) (act : Act) (s' : State ψ) : Prop :=
  match act with
  | .regist _ _ id => ∀ i, id = some i → (s.ctl i).flag = 0
  | .delete vdiskid _ => vdiskid < devices → ((s.ctl vdiskid.toNat).flag = 0 → s' = s) ∧
      haveVdisk s'.ctl vdiskid = false ∧ getDevice s'.ctl vdiskid.toNat = none ∧ ¬Refers s' vdiskid.toNat
  | .mount _ => True
  | .transfer _ => True

/-- A device is registered as in use; one that is deleted is not in use, the first identifier is free, and no node has
the entry. -/
def Spares (s : State ψ) : Act → Prop
  | .regist _ vd _ => vd.flag ≠ 0 ∨ s.allocator.free = ∅
  | .delete vdiskid _ => (devices : Int) ≤ vdiskid ∨ ((s.ctl vdiskid.toNat).flag = 0 ∧
      s.allocator.bitmap 0 = false ∧ ¬Refers s vdiskid.toNat)
  | .mount _ => True
  | .transfer _ => True

structure SameTable (s s' : State ψ) : Prop where
  ctl : s'.ctl = s.ctl
  allocator : s'.allocator = s.allocator
  bounce : s'.bounce = s.bounce
  freed : s'.freed = s.freed
  strings : s'.strings = s.strings

theorem SameTable.refl (s : State ψ) : SameTable s s := ⟨rfl, rfl, rfl, rfl, rfl⟩

variable {s s' : State ψ} {env : Callbacks ψ} {vdiskid : Int} {locked : Bool} {act : Act}

theorem SameTable.trans {s'' : State ψ} (h : SameTable s s') (h' : SameTable s' s'') : SameTable s s'' := by
  constructor
  · exact h'.ctl.trans h.ctl
  · exact h'.allocator.trans h.allocator
  · exact h'.bounce.trans h.bounce
  · exact h'.freed.trans h.freed
  · exact h'.strings.trans h.strings

theorem devfsRegister0_table (env : Callbacks ψ) (path : Option Text) (id : Nat) (s : State ψ) :
    SameTable s (devfsRegister0 env path id s).1 := by
  rw [devfsRegister0]
  split
  · exact ⟨rfl, rfl, rfl, rfl, rfl⟩
  · split
    · exact ⟨rfl, rfl, rfl, rfl, rfl⟩
    · split
      · exact ⟨rfl, rfl, rfl, rfl, rfl⟩
      · exact ⟨rfl, rfl, rfl, rfl, rfl⟩

theorem registerAll_table (env : Callbacks ψ) (ids : List Nat) (s : State ψ) :
    SameTable s (ids.foldl (fun s i => (devfsRegister0 env (s.pathText i) i s).1) s) := by
  induction ids generalizing s with
  | nil => exact .refl s
  | cons i ids ih => exact (devfsRegister0_table env _ i s).trans (ih _)

theorem devfsMount_table (env : Callbacks ψ) (node : NodeId) (s : State ψ) : SameTable s (devfsMount env node s) := by
  refine .trans ?_ (registerAll_table env _ _)
  exact ⟨rfl, rfl, rfl, rfl, rfl⟩

theorem devfsDelete_table {path : Text} (h : devfsDelete env path s = some s') : SameTable s s' := by
  rw [devfsDelete] at h
  split at h
  · cases h
    exact ⟨rfl, rfl, rfl, rfl, rfl⟩
  · split at h
    · cases h
    · cases h
      exact ⟨rfl, rfl, rfl, rfl, rfl⟩

theorem dropNode_ctl {device : DeviceT} (h : dropNode env device s = some s') : s'.ctl = s.ctl := by
  rw [dropNode] at h
  split at h
  · obtain ⟨s'', hDelete, rfl⟩ := Option.map_eq_some_iff.1 h
    exact (devfsDelete_table hDelete).ctl
  · split at h
    · cases h
      rfl
    · exact (devfsDelete_table h).ctl

structure Table (s : State ψ) : Prop where
  sound : s.allocator.Sound
  maxIds : s.allocator.maxIds = devices
  used : ∀ i, (s.ctl i).flag ≠ 0 ↔ s.allocator.bitmap i = true
  absent : ∀ i, (s.ctl i).flag = 0 → s.ctl i = DeviceT.zero ∧ s.bounce i = false
  freed : s.freed = []

theorem Table.consistent (h : Table s) : Consistent s := by
  constructor
  · exact fun i _ => h.used i
  · rw [h.freed]
    exact List.nodup_nil

theorem Table.same (h : Table s) (hSame : SameTable s s') : Table s' := by
  constructor
  · exact hSame.allocator ▸ h.sound
  · exact hSame.allocator ▸ h.maxIds
  · rw [hSame.ctl, hSame.allocator]
    exact h.used
  · rw [hSame.ctl, hSame.bounce]
    exact h.absent
  · exact hSame.freed.trans h.freed

theorem deviceManagerInit_table (hZero : ∀ i, s.ctl i = DeviceT.zero) (hFreed : s.freed = []) :
    Table (deviceManagerInit s) := by
  have hCtl : ∀ i, (deviceManagerInit s).ctl i = DeviceT.zero := by
    intro i
    rw [deviceManagerInit]
    simp only [hZero]
    rfl
  constructor
  · exact idAllocatorCreate_sound (by decide)
  · rfl
  · intro i
    rw [hCtl]
    exact ⟨fun h => absurd rfl h, nofun⟩
  · exact fun i _ => ⟨hCtl i, rfl⟩
  · exact hFreed

theorem setPath_spec (s : State ψ) (id : Nat) (path : Option Text) :
    (∃ p, (s.setPath id path).ctl = update s.ctl id { s.ctl id with path := p }) ∧
      (s.setPath id path).allocator = s.allocator ∧ (s.setPath id path).bounce = s.bounce ∧
      (s.setPath id path).freed = s.freed := by
  cases path with
  | none => exact ⟨⟨none, rfl⟩, rfl, rfl, rfl⟩
  | some path => exact ⟨⟨some s.stringCount, rfl⟩, rfl, rfl, rfl⟩

structure Adds (vd : DeviceT) (s s' : State ψ) (id : Nat) : Prop where
  takes : Takes s.allocator s'.allocator id
  entry : ∃ p, s'.ctl id = { vd with vdiskid := id, path := p }
  other : ∀ i, i ≠ id → s'.ctl i = s.ctl i
  bounce : s'.bounce = s.bounce
  freed : s'.freed = s.freed

theorem devfsRegister_adds (env : Callbacks ψ) (path : Option Text) {vd : DeviceT} {id : Nat}
    {allocator : IdAllocator} (hTakes : Takes s.allocator allocator id) :
    Adds vd s (devfsRegister env path id ({ s with allocator }.setDevice id { vd with vdiskid := id })).1 id := by
  generalize hNew : ({ s with allocator } : State ψ).setDevice id { vd with vdiskid := id } = t
  obtain ⟨⟨p, hCtl⟩, hAllocator, hBounce, hFreed⟩ := setPath_spec t id path
  have hSame : SameTable (t.setPath id path) (devfsRegister env path id t).1 := by
    rw [devfsRegister]
    split
    · exact .refl _
    · exact devfsRegister0_table env _ id _
  have hEntry : ∀ i, t.ctl i = if i = id then { vd with vdiskid := id } else s.ctl i := by
    rw [← hNew]
    exact fun i => update_apply ..
  have hAfter : ∀ i, (devfsRegister env path id t).1.ctl i =
      if i = id then { vd with vdiskid := id, path := p } else s.ctl i := by
    intro i
    rw [hSame.ctl, hCtl, update_apply]
    split_ifs with hi
    · rw [hEntry, if_pos rfl]
    · rw [hEntry, if_neg hi]
  constructor
  · rw [hSame.allocator, hAllocator, ← hNew]
    exact hTakes
  · exact ⟨p, (hAfter id).trans (if_pos rfl)⟩
  · exact fun i hi => (hAfter i).trans (if_neg hi)
  · rw [hSame.bounce, hBounce, ← hNew]
    rfl
  · rw [hSame.freed, hFreed, ← hNew]
    rfl

theorem registDevice_spec (env : Callbacks ψ) (path : Option Text) (vd : DeviceT) (h : s.allocator.Sound) :
    ((registDevice env path vd s).2.id = none ∧ s.allocator.free = ∅ ∧ (registDevice env path vd s).1 = s) ∨
      ∃ id, (registDevice env path vd s).2.id = some id ∧ Adds vd s (registDevice env path vd s).1 id := by
  rw [registDevice]
  split
  · next allocator hAlloc =>
    have hNone := idAlloc_none h (by rw [hAlloc])
    rw [hAlloc] at hNone
    exact .inl ⟨rfl, hNone.1, by rw [show allocator = s.allocator from hNone.2]⟩
  · next allocator i hAlloc =>
    have hTakes : Takes s.allocator (idAlloc s.allocator).1 i := idAlloc_some h (by rw [hAlloc])
    rw [hAlloc] at hTakes
    exact .inr ⟨i, rfl, devfsRegister_adds env path hTakes⟩

theorem Table.adds {vd : DeviceT} {id : Nat} (h : Table s) (hAdds : Adds vd s s' id)
    (hFlag : vd.flag ≠ 0) : Table s' := by
  obtain ⟨p, hEntry⟩ := hAdds.entry
  have hIn : (s'.ctl id).flag ≠ 0 := by
    rw [hEntry]
    exact hFlag
  have hBits : ∀ i, s'.allocator.bitmap i = if i = id then true else s.allocator.bitmap i := by
    rw [hAdds.takes.bitmap]
    exact fun i => update_apply ..
  constructor
  · exact hAdds.takes.sound
  · exact hAdds.takes.maxIds.trans h.maxIds
  · intro i
    rw [hBits]
    split_ifs with hi
    · rw [hi]
      exact ⟨fun _ => rfl, fun _ => hIn⟩
    · rw [hAdds.other i hi]
      exact h.used i
  · intro i hAbsent
    obtain rfl | hi := eq_or_ne i id
    · exact absurd hAbsent hIn
    · rw [hAdds.other i hi, hAdds.bounce] at *
      exact h.absent i hAbsent
  · exact hAdds.freed.trans h.freed

theorem deleteDevice_cases (h : deleteDevice env vdiskid locked s = some s') : ((devices : Int) ≤ vdiskid ∧ s' = s) ∨
      (0 ≤ vdiskid ∧ vdiskid < devices ∧ ∃ bounce t,
        (bounce = s.bounce ∨ bounce = update s.bounce vdiskid.toNat false) ∧
        dropNode env (s.ctl vdiskid.toNat) { s with bounce } = some t ∧
        s' = { t with allocator := (idFree t.allocator (s.ctl vdiskid.toNat).vdiskid).1 }) := by
  rw [deleteDevice] at h
  split at h
  · next hAbove => exact .inl ⟨hAbove, (Option.some.inj h).symm⟩
  next hBelow =>
  split at h
  · cases h
  next hFrom =>
  refine .inr ⟨Int.not_lt.1 hFrom, Int.not_le.1 hBelow, ?_⟩
  obtain ⟨t, hDrop, rfl⟩ := Option.map_eq_some_iff.1 h
  cases locked with
  | true => exact ⟨s.bounce, t, .inl rfl, hDrop, rfl⟩
  | false => exact ⟨_, t, .inr rfl, hDrop, rfl⟩

theorem Table.delete_absent (h : Table s) (hLt : vdiskid < devices) (hAbsent : (s.ctl vdiskid.toNat).flag = 0)
    (hDelete : deleteDevice env vdiskid locked s = some s') :
    s' = { s with allocator := (idFree s.allocator 0).1 } := by
  obtain ⟨hZero, hBounce⟩ := h.absent _ hAbsent
  obtain ⟨hAbove, -⟩ | ⟨-, -, bounce, t, hNew, hDrop, rfl⟩ := deleteDevice_cases hDelete
  · exact absurd hAbove (Int.not_le.2 hLt)
  · have hSame : bounce = s.bounce := by
      obtain rfl | rfl := hNew
      · rfl
      · exact Function.update_eq_self_iff.2 hBounce.symm
    rw [hZero, hSame] at hDrop
    cases hDrop
    rw [hZero]
    rfl

theorem idFree_zero (h : Table s) (hFree : s.allocator.bitmap 0 = false) : (idFree s.allocator 0).1 = s.allocator := by
  rw [idFree, if_neg (by rw [h.maxIds]; decide), hFree]
  rfl

theorem deleteDevice_ctl (h : deleteDevice env vdiskid locked s = some s') : s'.ctl = s.ctl := by
  obtain ⟨-, rfl⟩ | ⟨-, -, bounce, t, -, hDrop, rfl⟩ := deleteDevice_cases h
  · rfl
  · exact (dropNode_ctl hDrop :)

theorem Table.delete (h : Table s)
    (hSpares : Spares s (.delete vdiskid locked)) (hDelete : deleteDevice env vdiskid locked s = some s') : s' = s := by
  obtain hLt | hAbove := Int.lt_or_le vdiskid devices
  · obtain ⟨hAbsent, hFirst, -⟩ := hSpares.resolve_left (Int.not_le.2 hLt)
    rw [h.delete_absent hLt hAbsent hDelete, idFree_zero h hFirst]
  · rw [deleteDevice, if_pos hAbove] at hDelete
    exact (Option.some.inj hDelete).symm

theorem Table.transfer (h : Table s) {i : Nat} (hPresent : (s.ctl i).flag ≠ 0) :
    Table { s with bounce := update s.bounce i true } := by
  refine { h with absent := ?_ }
  intro k hAbsent
  have hNe : k ≠ i := by
    rintro rfl
    exact hPresent hAbsent
  exact ⟨(h.absent k hAbsent).1, (update_of_ne hNe ..).trans (h.absent k hAbsent).2⟩

theorem Table.step (h : Table s) (hSpares : Spares s act) (hStep : Acts env s act s') : Table s' := by
  cases hStep with
  | regist path vd =>
    obtain ⟨-, -, hSame⟩ | ⟨id, -, hAdds⟩ := registDevice_spec env path vd h.sound
    · rw [hSame]
      exact h
    · obtain hFlag | hFull := hSpares
      · exact h.adds hAdds hFlag
      · exact absurd hAdds.takes.free (hFull ▸ Finset.notMem_empty id)
  | delete vdiskid locked hDelete => exact (h.delete hSpares hDelete).symm ▸ h
  | mount node => exact h.same (devfsMount_table env node s)
  | transfer i hPresent => exact h.transfer hPresent

theorem Table.rightly (h : Table s) (hSpares : Spares s act) (hStep : Acts env s act s') : Rightly s act s' := by
  cases hStep with
  | regist path vd =>
    intro i hId
    obtain ⟨hNone, -, -⟩ | ⟨id, hSome, hAdds⟩ := registDevice_spec env path vd h.sound
    · cases hNone.symm.trans hId
    · cases hSome.symm.trans hId
      by_contra hIn
      cases ((h.used i).1 hIn).symm.trans (mem_free.1 hAdds.takes.free).2
  | delete vdiskid locked hDelete =>
    intro hLt
    obtain hAbove | ⟨hAbsent, hFirst, hNode⟩ := hSpares
    · exact absurd hAbove (Int.not_le.2 hLt)
    · obtain rfl := h.delete (.inr ⟨hAbsent, hFirst, hNode⟩) hDelete
      refine ⟨fun _ => rfl, ?_, if_pos hAbsent, hNode⟩
      rw [haveVdisk, hAbsent]
      exact decide_eq_false fun hHave => Int.lt_irrefl 0 hHave.2
  | mount node => trivial
  | transfer i hPresent => trivial

theorem Table.spares (h : Table s) (hStep : Acts env s act s')
    (hConsistent : Consistent s') (hRightly : Rightly s act s') : Spares s act := by
  cases hStep with
  | regist path vd =>
    obtain ⟨-, hFull, -⟩ | ⟨id, -, hAdds⟩ := registDevice_spec env path vd h.sound
    · exact .inr hFull
    · obtain ⟨p, hEntry⟩ := hAdds.entry
      have hLt : id < devices := h.maxIds ▸ (mem_free.1 hAdds.takes.free).1
      have hIn := (hConsistent.1 id hLt).2 (by rw [hAdds.takes.bitmap, update_self])
      rw [hEntry] at hIn
      exact .inl hIn
  | delete vdiskid locked hDelete =>
    obtain hLt | hAbove := Int.lt_or_le vdiskid devices
    · obtain ⟨hSame, -, hNone, hNode⟩ := hRightly hLt
      have hAbsent : (s.ctl vdiskid.toNat).flag = 0 := by
        rw [getDevice, deleteDevice_ctl hDelete] at hNone
        by_contra hIn
        rw [if_neg hIn] at hNone
        cases hNone
      have hEq := h.delete_absent hLt hAbsent hDelete
      rw [hSame hAbsent] at hEq hNode
      refine .inr ⟨hAbsent, ?_, hNode⟩
      calc
        s.allocator.bitmap 0 = (idFree s.allocator 0).1.bitmap 0 :=
          congrArg (fun s : State ψ => s.allocator.bitmap 0) hEq
        _ = false := by rw [idFree_bitmap h.sound, update_self]
    · exact .inl hAbove
  | mount node => trivial
  | transfer i hPresent => trivial

/-- From the start on the table is right as long as the steps meet the condition, and a step that does not meet it goes
wrong. -/
theorem device_table_consistent {env : Callbacks ψ} {s₀ s : State ψ} {acts : List Act}
    (hZero : ∀ i, s₀.ctl i = DeviceT.zero) (hFreed : s₀.freed = [])
    (hRun : Run ((deviceSystem env).restrict Spares) (deviceManagerInit s₀) acts s) :
    Consistent s ∧ ∀ act s', Acts env s act s' → ((Consistent s' ∧ Rightly s act s') ↔ Spares s act) := by
  have hStep : ∀ (s : State ψ) (act : Act) (s' : State ψ), Table s →
      ((deviceSystem env).restrict Spares).step s act s' → Table s' :=
    fun _ _ _ h hStep => h.step hStep.1 hStep.2
  have hTable : Table s := hRun.invariant hStep (deviceManagerInit_table hZero hFreed)
  refine ⟨hTable.consistent, fun act s' hAct => ?_⟩
  constructor
  · rintro ⟨hConsistent, hRightly⟩
    exact hTable.spares hAct hConsistent hRightly
  · intro hSpares
    exact ⟨(hTable.step hSpares hAct).consistent, hTable.rightly hSpares hAct⟩

def idle : Callbacks Unit := fun _ =>
  { callbacks := fun _ => ⟨fun t _ => t, fun t _ => t, fun t _ => t, fun t _ => t, fun _ _ => none⟩
    vfsAlias := fun _ => none
    memory := fun _ _ => true }

def start : State Unit where
  ctl := fun _ => DeviceT.zero
  allocator := idAllocatorCreate 0
  bounce := fun _ => false
  strings := fun _ => []
  stringCount := 0
  freed := []
  rootHandle := none
  devfsRoot := none
  vfs :=
    { tree :=
        { nodes := fun _ => ⟨none, none, none, none, fileDir, 0, none, []⟩
          rootdir := 0
          allocated := 1
          store := { handles := fun _ => ⟨false, none, [], []⟩, count := 0, rest := () } }
      refcount := fun _ => 0
      freed := fun _ => false }

def sata : DeviceT :=
  { DeviceT.zero with
    read := some .driver, write := some .driver, flag := 1, size := 4096, sectorSize := 512,
    driveName := ['s', 'a', 't', 'a', '0'], maxSize := 4096 }

def plugged : State Unit := (registDevice idle none sata (deviceManagerInit start)).1

theorem plugged_step : Acts idle (deviceManagerInit start) (.regist none sata (some 0)) plugged :=
  Acts.regist none sata

theorem device_table_consistent_plugged : Consistent plugged := by
  have hAllowed : Spares (deviceManagerInit start) (.regist none sata (some 0)) := .inl (by decide)
  have hRun : Run ((deviceSystem idle).restrict Spares) (deviceManagerInit start) _ plugged :=
    Run.single ⟨hAllowed, plugged_step⟩
  exact (device_table_consistent (fun _ => rfl) rfl hRun).1

/-- The disk is deleted, and its entry is still in use when its identifier is free. -/
theorem deleted_device_present :
    ∃ acts s, Run (deviceSystem idle) (deviceManagerInit start) acts s ∧ ¬Consistent s := by
  have hGone : ((deleteDevice idle 0 false plugged).map fun s => ((s.ctl 0).flag, s.allocator.bitmap 0)) =
      some (1, false) := by
    decide
  obtain ⟨s, hDelete, hAfter⟩ := Option.map_eq_some_iff.1 hGone
  have hRun := Run.single (M := deviceSystem idle) plugged_step
  refine ⟨_, s, hRun.snoc (.delete 0 false hDelete), ?_⟩
  intro h
  obtain ⟨hFlag, hFree⟩ := Prod.mk.injEq .. ▸ hAfter
  have hIn := (h.1 0 (by decide)).1 (by rw [hFlag]; decide)
  rw [hFree] at hIn
  cases hIn

end OpenXJ380.Device
