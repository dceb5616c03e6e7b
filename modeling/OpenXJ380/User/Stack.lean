import Mathlib.Data.List.TakeWhile
import OpenXJ380.Krlibc.Command
import OpenXJ380.Lib.PushedBlocks
import OpenXJ380.Signal.Model

/-! # The first stack of a process (`build_user_stack` of `kernel/task/pcb.cpp`)

The strings are pushed first, and below them the vectors that point to them.
-/

namespace OpenXJ380.UserStack

open Krlibc PushedBlocks Signal WordMemory

/-- What there is memory for; `arg` says so of the arguments of a command line. -/
structure Malloc where
  arg : Nat → Bool
  vectors : Bool
  tmp : Bool

/-- What is read of the thread, its process and its user. Vectors of the environment may have gaps. -/
structure UserTask where
  address : Word
  name : CString
  argv : Option (List CString)
  cmdline : CString
  groupEnvp : Option (List (Option CString))
  userEnvp : Option (List (Option CString))
  uid : BitVec 32
  gid : BitVec 32
  auxBase : Word
  auxEntry : Word
  auxPhnum : Word
  auxPhent : Word
  auxPhdr : Word

abbrev TmpStack := Memory × Word

def pushSlice (pages : Nat → Nat → Bool) (st : TmpStack) (slice : List Byte) : Option TmpStack :=
  let tmpStack := st.2 - BitVec.ofNat 64 slice.length
  let tmpStack := tmpStack - tmpStack % 8
  if slice.length ≠ 0 ∧ userRangeMapped pages tmpStack slice.length = false then none
  else if tmpStack = 0 then none
  else some (storeBytes st.1 tmpStack.toNat slice, tmpStack)

/-- The loop of `fill_aux_random`. -/
def fillAuxRandomLoop : Nat → Nat → Word → List Byte
  | 0, _, _ => []
  | left + 1, i, seed =>
    let seed := seed ^^^ seed >>> 12
    let seed := seed ^^^ seed <<< 25
    let seed := seed ^^^ seed >>> 27
    let seed := seed * 0x2545f4914f6cdd1d
    (seed >>> ((i &&& 7) * 8)).setWidth 8 :: fillAuxRandomLoop left (i + 1) seed

def fillAuxRandom (nanoTime : Word) (task : UserTask) (sp : Word) : List Byte :=
  fillAuxRandomLoop 16 0 (nanoTime ^^^ task.address ^^^ sp <<< 7)

/-- The arguments: those of the thread, or what is parsed of the command line. -/
def arguments (malloc : Malloc) (task : UserTask) : Option (List (List Byte)) :=
  match task.argv with
  | some (arg :: argv) => some (((arg :: argv).take execveVectorMax).map CString.bytes)
  | _ => (cmdParseLimit malloc.arg task.cmdline.bytes space execveVectorMax).map (List.take execveVectorMax)

def environment (task : UserTask) : List (List Byte) :=
  (match task.groupEnvp with
    | some envp => envp
    | none => task.userEnvp.getD []).filterMap (Option.map CString.bytes)

/-- What `strlen` counts, and the NUL. -/
def cString (string : List Byte) : List Byte := string.takeWhile (· ≠ nul) ++ [nul]

/-- Strings are pushed one below the other; the addresses are in the order of the strings. -/
def pushStrings (pages : Nat → Nat → Bool) : List (List Byte) → TmpStack → Option (TmpStack × List Word)
  | [], st => some (st, [])
  | string :: rest, st => do
    let st ← pushSlice pages st (cString string)
    let (st', addresses) ← pushStrings pages rest st
    some (st', st.2 :: addresses)

def platform : List Byte := [0x78, 0x38, 0x36, 0x5f, 0x36, 0x34]

def atNull : Word := 0
def atPhdr : Word := 3
def atPhent : Word := 4
def atPhnum : Word := 5
def atPagesz : Word := 6
def atBase : Word := 7
def atFlags : Word := 8
def atEntry : Word := 9
def atUid : Word := 11
def atEuid : Word := 12
def atGid : Word := 13
def atEgid : Word := 14
def atPlatform : Word := 15
def atHwcap : Word := 16
def atClktck : Word := 17
def atSecure : Word := 23
def atRandom : Word := 25
def atExecfn : Word := 31

def auxv (task : UserTask) (entryPoint execfn platformPtr randomPtr : Word) : List (Word × Word) :=
  [(atNull, 0), (atSecure, 0), (atExecfn, execfn), (atClktck, 100), (atPlatform, platformPtr), (atHwcap, 0),
    (atEgid, task.gid.setWidth 64), (atGid, task.gid.setWidth 64), (atEuid, task.uid.setWidth 64),
    (atUid, task.uid.setWidth 64), (atFlags, 0), (atBase, task.auxBase), (atRandom, randomPtr),
    (atEntry, if task.auxEntry ≠ 0 then task.auxEntry else entryPoint), (atPhnum, task.auxPhnum),
    (atPhent, task.auxPhent), (atPhdr, task.auxPhdr), (atPagesz, 4096)]

def pushAuxv (pages : Nat → Nat → Bool) (st : TmpStack) (pair : Word × Word) : Option TmpStack :=
  pushSlice pages st (wordBytes [pair.1, pair.2])

/-- `tmp_stack -= (tmp_stack - total_length) % 0x10`. -/
def pad (st : TmpStack) (envI argvI : Nat) : TmpStack :=
  let totalLength := BitVec.ofNat 64 (2 * 8 + 24 * 2 * 8 + envI * 8 + 8 + argvI * 8 + 8 + 8)
  (st.1, st.2 - (st.2 - totalLength) % 16)

structure Built where
  memory : Memory
  rsp : Word
  ep : Word

/-- The part of `build_user_stack` that follows the padding. -/
def pushVectors (pages : Nat → Nat → Bool) (aux : List (Word × Word)) (envps argvps : List Word) (st : TmpStack) :
    Option Built := do
  let st ← aux.foldlM (pushAuxv pages) st
  let st ← pushSlice pages st (wordBytes [0])
  let st ← pushSlice pages st (wordBytes envps)
  let ep := st.2
  let st ← pushSlice pages st (wordBytes [0])
  let st ← pushSlice pages st (wordBytes argvps)
  let st ← pushSlice pages st (wordBytes [BitVec.ofNat 64 argvps.length])
  some ⟨st.1, st.2, ep⟩

def buildUserStack (pages : Nat → Nat → Bool) (malloc : Malloc) (nanoTime : Word) (task : UserTask) (memory : Memory)
    (sp entryPoint : Word) : Option Built := do
  let argv ← arguments malloc task
  let st ← pushSlice pages (memory, sp) (cString task.name.bytes)
  let namePtr := st.2
  let st ← pushSlice pages st (platform ++ [nul])
  let platformPtr := st.2
  if malloc.vectors = false then none
  else
    let (st, envps) ← pushStrings pages (environment task) st
    let (st, argvps) ← pushStrings pages argv st
    let execfn := argvps.headD namePtr
    let st ← pushSlice pages st (fillAuxRandom nanoTime task sp)
    let randomPtr := st.2
    let st := pad st envps.length argvps.length
    if malloc.tmp = false then none
    else pushVectors pages (auxv task entryPoint execfn platformPtr randomPtr) envps argvps st

section

variable {pages : Nat → Nat → Bool} {malloc : Malloc} {task : UserTask} {st st' : TmpStack} {slice : List Byte}
  {ws : List Word}

def TmpStack.low (st : TmpStack) : Stack := (st.1, st.2.toNat)

theorem pushSlice_spec (h : pushSlice pages st slice = some st') :
    st' = (storeBytes st.1 st'.2.toNat slice, st'.2) ∧ st'.2 ≠ 0 ∧ st'.2.toNat % 8 = 0 ∧
      st'.2.toNat + slice.length ≤ st.2.toNat ∧ st.2.toNat < st'.2.toNat + slice.length + 8 := by
  rw [pushSlice] at h
  generalize hTop : st.2 - BitVec.ofNat 64 slice.length = top at h
  have hMod : (top % 8).toNat = top.toNat % 8 := BitVec.toNat_umod
  have hAligned : (top - top % 8).toNat = top.toNat - top.toNat % 8 := by
    rw [BitVec.toNat_sub_of_le (by rw [BitVec.le_def, hMod]; exact Nat.mod_le _ _), hMod]
  generalize top - top % 8 = tmpStack at h hAligned
  split at h
  next => cases h
  next hMapped =>
    split at h
    next => cases h
    next hZero =>
      cases h
      refine ⟨rfl, hZero, by simp only; omega, ?_⟩
      obtain hEmpty | hSome := Nat.eq_zero_or_pos slice.length
      · rw [hEmpty, BitVec.sub_zero] at hTop
        subst hTop
        simp only
        omega
      · have hRange : userRangeMapped pages tmpStack slice.length := by
          by_contra hNot
          exact hMapped ⟨hSome.ne', eq_false_of_ne_true hNot⟩
        simp only [userRangeMapped, Bool.and_eq_true, decide_eq_true_eq] at hRange
        have hArea : KERNEL_AREA_MEM = 0xf000000000000000 := rfl
        have hTopNat := congrArg BitVec.toNat hTop
        rw [BitVec.toNat_sub, BitVec.toNat_ofNat, Nat.mod_eq_of_lt (show slice.length < 2 ^ 64 by omega)] at hTopNat
        simp only
        omega

theorem pushSlice_pushed (h : pushSlice pages st slice = some st') : Pushed st.low [(st'.2.toNat, slice)] st'.low := by
  obtain ⟨hMemory, -, -, hFits, -⟩ := pushSlice_spec h
  have hPushed := @Pushed.push st'.2.toNat st.low slice hFits
  rw [hMemory]
  exact hPushed

theorem pushSlice_row (h : pushSlice pages st (wordBytes ws) = some st') (hAligned : st.2.toNat % 8 = 0) :
    Row st.low ws st'.low := by
  obtain ⟨hMemory, -, hAligned', hFits, hNear⟩ := pushSlice_spec h
  rw [length_wordBytes] at hFits hNear
  have hRow := @Row.push st'.2.toNat st.low ws (show st'.2.toNat + 8 * ws.length = st.2.toNat by omega)
  rw [hMemory, storeBytes_wordBytes]
  exact hRow

theorem cString_eq {string : List Byte} (h : nul ∉ string) : cString string = string ++ [nul] := by
  have hAll : ∀ c ∈ string, decide (c ≠ nul) := by
    intro c hc
    apply decide_eq_true
    rintro rfl
    exact h hc
  rw [cString, List.takeWhile_eq_self_iff.mpr hAll]

theorem environment_nulFree : ∀ string ∈ environment task, nul ∉ string := by
  intro string h
  obtain ⟨entry, -, hEntry⟩ := List.mem_filterMap.mp h
  obtain ⟨s, -, rfl⟩ := Option.map_eq_some_iff.mp hEntry
  exact s.nulFree

theorem arguments_spec {argv : List (List Byte)} (h : arguments malloc task = some argv) :
    argv.length ≤ execveVectorMax ∧ ∀ arg ∈ argv, nul ∉ arg := by
  rw [arguments] at h
  split at h
  next arg rest _ =>
    cases h
    refine ⟨by rw [List.length_map]; exact List.length_take_le _ _, fun a ha => ?_⟩
    obtain ⟨s, -, rfl⟩ := List.mem_map.mp ha
    exact s.nulFree
  next =>
    obtain ⟨parsed, hParsed, rfl⟩ := Option.map_eq_some_iff.mp h
    refine ⟨List.length_take_le _ _, fun a ha hNul => ?_⟩
    have hSubset := cmdParseLimit_subset hParsed a (List.mem_of_mem_take ha)
    exact task.cmdline.nulFree (hSubset hNul)

theorem arguments_given {args : List CString} {argv : List (List Byte)} (h : arguments malloc task = some argv)
    (hGiven : task.argv = some args) (hSome : args ≠ []) (hMax : args.length ≤ execveVectorMax) :
    argv = args.map CString.bytes := by
  obtain ⟨arg, rest, rfl⟩ := List.exists_cons_of_ne_nil hSome
  rw [arguments, hGiven] at h
  rw [← Option.some.inj h, List.take_of_length_le hMax]

def placed (addresses : List Word) (strings : List (List Byte)) : List (Nat × List Byte) :=
  List.zipWith (fun address string => (address.toNat, string ++ [nul])) addresses strings

theorem pushStrings_spec {strings : List (List Byte)} {addresses : List Word}
    (h : pushStrings pages strings st = some (st', addresses)) (hFree : ∀ string ∈ strings, nul ∉ string)
    (hAligned : st.2.toNat % 8 = 0) (hZero : st.2 ≠ 0) :
    addresses.length = strings.length ∧ st'.2.toNat % 8 = 0 ∧ st'.2 ≠ 0 ∧
      Pushed st.low (placed addresses strings) st'.low := by
  induction strings generalizing st addresses with
  | nil =>
    obtain ⟨rfl, rfl⟩ := Prod.mk.inj (Option.some.inj h)
    exact ⟨rfl, hAligned, hZero, .lower le_rfl⟩
  | cons string rest ih =>
    rw [pushStrings] at h
    simp only [Option.bind_eq_bind, Option.bind_eq_some_iff, Option.some.injEq, Prod.mk.injEq] at h
    obtain ⟨st₁, hFirst, ⟨st₂, later⟩, hLater, rfl, rfl⟩ := h
    obtain ⟨-, hZero', hAligned', -⟩ := pushSlice_spec hFirst
    obtain ⟨hLength, hEnd, hNonzero, hRest⟩ := ih hLater (fun s hs => hFree s (.tail string hs)) hAligned' hZero'
    have hPushed := pushSlice_pushed hFirst
    rw [cString_eq (hFree string (.head _))] at hPushed
    exact ⟨by rw [List.length_cons, List.length_cons, hLength], hEnd, hNonzero, hPushed.trans hRest⟩

def pairWords (pairs : List (Word × Word)) : List Word := pairs.flatMap fun pair => [pair.1, pair.2]

def vectors (argvps envps : List Word) (aux : List (Word × Word)) : List Word :=
  BitVec.ofNat 64 argvps.length :: argvps ++ 0 :: envps ++ 0 :: pairWords aux

theorem foldlM_pushAuxv {pairs : List (Word × Word)} (h : pairs.foldlM (pushAuxv pages) st = some st')
    (hAligned : st.2.toNat % 8 = 0) : st'.2.toNat % 8 = 0 ∧ Row st.low (pairWords pairs.reverse) st'.low := by
  induction pairs generalizing st with
  | nil =>
    cases h
    exact ⟨hAligned, .refl _⟩
  | cons pair rest ih =>
    rw [List.foldlM_cons, Option.bind_eq_bind, Option.bind_eq_some_iff] at h
    obtain ⟨st₁, hFirst, hRest⟩ := h
    obtain ⟨-, -, hAligned', -⟩ := pushSlice_spec hFirst
    obtain ⟨hEnd, hRow⟩ := ih hRest hAligned'
    refine ⟨hEnd, ?_⟩
    have hAll := (pushSlice_row hFirst hAligned).trans hRow
    rw [List.reverse_cons, pairWords, List.flatMap_append]
    exact hAll

theorem pad_spec (envI argvI : Nat) (hAligned : st.2.toNat % 8 = 0) (hZero : st.2 ≠ 0) :
    (pad st envI argvI).2.toNat ≤ st.2.toNat ∧ (pad st envI argvI).2.toNat % 16 = 8 * (envI + argvI + 1) % 16 := by
  have hPositive := BitVec.toNat_pos_of_ne_zero hZero
  rw [pad]
  simp only
  generalize hLength : 2 * 8 + 24 * 2 * 8 + envI * 8 + 8 + argvI * 8 + 8 + 8 = totalLength
  have hMod : ((st.2 - BitVec.ofNat 64 totalLength) % 16).toNat =
    (st.2.toNat + (2 ^ 64 - totalLength % 2 ^ 64)) % 2 ^ 64 % 16 := by
    rw [BitVec.toNat_umod, BitVec.toNat_sub, BitVec.toNat_ofNat, add_comm]
    rfl
  rw [BitVec.toNat_sub_of_le (by rw [BitVec.le_def, hMod]; omega), hMod]
  omega

theorem pushVectors_spec {aux : List (Word × Word)} {envps argvps : List Word} {b : Built}
    (h : pushVectors pages aux envps argvps st = some b) (hAligned : st.2.toNat % 8 = 0) :
    Row st.low (vectors argvps envps aux.reverse) (b.memory, b.rsp.toNat) ∧
      b.ep.toNat = b.rsp.toNat + 8 * (1 + argvps.length + 1) := by
  rw [pushVectors] at h
  simp only [Option.bind_eq_bind, Option.bind_eq_some_iff, Option.some.injEq] at h
  obtain ⟨st₁, hAux, st₂, hEnvNull, st₃, hEnvps, st₄, hArgvNull, st₅, hArgvps, st₆, hArgc, rfl⟩ := h
  obtain ⟨hAligned₁, hRow₁⟩ := foldlM_pushAuxv hAux hAligned
  have hRow₂ := pushSlice_row hEnvNull hAligned₁
  have hRow₃ := pushSlice_row hEnvps (pushSlice_spec hEnvNull).2.2.1
  have hRow₄ := pushSlice_row hArgvNull (pushSlice_spec hEnvps).2.2.1
  have hRow₅ := pushSlice_row hArgvps (pushSlice_spec hArgvNull).2.2.1
  have hRow₆ := pushSlice_row hArgc (pushSlice_spec hArgvps).2.2.1
  constructor
  · have hAll := ((((hRow₁.trans hRow₂).trans hRow₃).trans hRow₄).trans hRow₅).trans hRow₆
    rw [vectors, List.append_assoc, List.cons_append]
    exact hAll
  · have hFits := ((hRow₄.trans hRow₅).trans hRow₆).fits
    simp only [List.length_append, List.length_singleton] at hFits
    exact hFits.symm

structure Layout where
  namePtr : Word
  platformPtr : Word
  randomPtr : Word
  argvps : List Word
  envps : List Word

def Layout.aux (l : Layout) (task : UserTask) (entryPoint : Word) : List (Word × Word) :=
  (auxv task entryPoint (l.argvps.headD l.namePtr) l.platformPtr l.randomPtr).reverse

def Layout.vectors (l : Layout) (task : UserTask) (entryPoint : Word) : List Word :=
  UserStack.vectors l.argvps l.envps (l.aux task entryPoint)

def Layout.blocks (l : Layout) (task : UserTask) (entryPoint : Word) (argv : List (List Byte)) (random : List Byte)
    (rsp : Word) : List (Nat × List Byte) :=
  [(l.namePtr.toNat, task.name.bytes ++ [nul])] ++ [(l.platformPtr.toNat, platform ++ [nul])] ++
    placed l.envps (environment task) ++ placed l.argvps argv ++ [(l.randomPtr.toNat, random)] ++
    [(rsp.toNat, wordBytes (l.vectors task entryPoint))]

structure WellFormed (task : UserTask) (entryPoint sp : Word) (argv : List (List Byte)) (random : List Byte)
    (l : Layout) (b : Built) : Prop where
  aligned : b.rsp.toNat % 16 = 0
  argc : l.argvps.length = argv.length
  envc : l.envps.length = (environment task).length
  vectors : loadWords b.memory b.rsp.toNat (l.vectors task entryPoint).length = l.vectors task entryPoint
  ends : ∃ pairs, l.aux task entryPoint = pairs ++ [(atNull, 0)] ∧ ∀ pair ∈ pairs, pair.1 ≠ atNull
  inside : ∀ block ∈ l.blocks task entryPoint argv random b.rsp,
    b.rsp.toNat ≤ block.1 ∧ block.1 + block.2.length ≤ sp.toNat
  apart : (l.blocks task entryPoint argv random b.rsp).Pairwise fun block block' =>
    block'.1 + block'.2.length ≤ block.1
  holds : ∀ block ∈ l.blocks task entryPoint argv random b.rsp, loadBytes b.memory block.1 block.2.length = block.2
  ep : b.ep.toNat = b.rsp.toNat + 8 * (1 + argv.length + 1)

theorem auxv_ends (l : Layout) (task : UserTask) (entryPoint : Word) :
    ∃ pairs, l.aux task entryPoint = pairs ++ [(atNull, 0)] ∧ ∀ pair ∈ pairs, pair.1 ≠ atNull := by
  refine ⟨((auxv task entryPoint (l.argvps.headD l.namePtr) l.platformPtr l.randomPtr).drop 1).reverse, rfl, ?_⟩
  simp only [List.mem_reverse, auxv, List.drop_one, List.tail_cons, List.forall_mem_cons, List.not_mem_nil,
    false_implies, implies_true, and_true]
  repeat' apply And.intro
  all_goals decide

theorem length_aux (l : Layout) (task : UserTask) (entryPoint : Word) :
    (pairWords (l.aux task entryPoint)).length = 36 := rfl

/-- What is built is well formed, whatever the thread is started with. -/
theorem buildUserStack_wellFormed {nanoTime : Word} {memory : Memory} {sp entryPoint : Word} {b : Built}
    (h : buildUserStack pages malloc nanoTime task memory sp entryPoint = some b) :
    ∃ argv l, arguments malloc task = some argv ∧ argv.length ≤ execveVectorMax ∧
      (∀ args, task.argv = some args → args ≠ [] → args.length ≤ execveVectorMax → argv = args.map CString.bytes) ∧
      WellFormed task entryPoint sp argv (fillAuxRandom nanoTime task sp) l b := by
  rw [buildUserStack] at h
  simp only [Option.bind_eq_bind, Option.bind_eq_some_iff] at h
  obtain ⟨argv, hArgv, st₁, hName, st₂, hPlatform, h⟩ := h
  split at h
  next => cases h
  next =>
    simp only [Option.bind_eq_some_iff] at h
    obtain ⟨⟨st₃, envps⟩, hEnvps, ⟨st₄, argvps⟩, hArgvps, st₅, hRandom, h⟩ := h
    split at h
    next => cases h
    next =>
      simp only at h
      obtain ⟨-, hZero₂, hAligned₂, -⟩ := pushSlice_spec hPlatform
      obtain ⟨hMax, hFree⟩ := arguments_spec hArgv
      obtain ⟨hEnvc, hAligned₃, hZero₃, hPushed₃⟩ := pushStrings_spec hEnvps environment_nulFree hAligned₂ hZero₂
      obtain ⟨hArgc, hAligned₄, hZero₄, hPushed₄⟩ := pushStrings_spec hArgvps hFree hAligned₃ hZero₃
      obtain ⟨-, hZero₅, hAligned₅, -⟩ := pushSlice_spec hRandom
      obtain ⟨hBelow, hPad⟩ := pad_spec envps.length argvps.length hAligned₅ hZero₅
      obtain ⟨hRow, hEp⟩ := pushVectors_spec h (by omega)
      have hPushed₁ := pushSlice_pushed hName
      rw [cString_eq task.name.nulFree] at hPushed₁
      have hStrings := (((hPushed₁.trans (pushSlice_pushed hPlatform)).trans hPushed₃).trans hPushed₄).trans
        (pushSlice_pushed hRandom)
      have hAll := (hStrings.trans (.lower hBelow)).trans hRow.pushed
      rw [List.append_nil] at hAll
      let l : Layout := ⟨st₁.2, st₂.2, st₅.2, argvps, envps⟩
      have hVectors : b.rsp.toNat + 8 * (l.vectors task entryPoint).length =
        (pad st₅ envps.length argvps.length).2.toNat := hRow.fits
      have hCount : (l.vectors task entryPoint).length = envps.length + argvps.length + 39 := by
        rw [Layout.vectors, vectors, List.length_append, List.length_append, List.length_cons, List.length_cons,
          List.length_cons, length_aux]
        simp only [l]
        omega
      rw [hCount] at hVectors
      exact ⟨argv, l, hArgv, hMax, fun _ => arguments_given hArgv, {
        aligned := by omega
        argc := hArgc
        envc := hEnvc
        vectors := hRow.words
        ends := auxv_ends l task entryPoint
        inside := hAll.inside
        apart := hAll.apart
        holds := hAll.holds
        ep := hArgc ▸ hEp }⟩

end

/-- A program `a` with an argument `b`, and an environment with a gap. -/
def smallTask : UserTask where
  address := 0x1000
  name := ⟨[0x61], by decide⟩
  argv := some [⟨[0x61], by decide⟩, ⟨[0x62], by decide⟩]
  cmdline := ⟨[], by decide⟩
  groupEnvp := some [none, some ⟨[0x63], by decide⟩]
  userEnvp := none
  uid := 0
  gid := 0
  auxBase := 0
  auxEntry := 0
  auxPhnum := 0
  auxPhent := 0
  auxPhdr := 0

theorem buildUserStack_wellFormed_small :
    ∃ b l, buildUserStack (fun _ _ => true) ⟨fun _ => true, true, true⟩ 0 smallTask (fun _ => 0) 0x8000 0x400000 =
        some b ∧
      WellFormed smallTask 0x400000 0x8000 [[0x61], [0x62]] (fillAuxRandom 0 smallTask 0x8000) l b := by
  have hBuilt : (buildUserStack (fun _ _ => true) ⟨fun _ => true, true, true⟩ 0 smallTask (fun _ => 0) 0x8000
      0x400000).isSome = true := by decide +kernel
  obtain ⟨b, h⟩ := Option.isSome_iff_exists.mp hBuilt
  obtain ⟨argv, l, -, -, hGiven, hWellFormed⟩ := buildUserStack_wellFormed h
  obtain rfl := hGiven _ rfl (by simp) (by decide)
  exact ⟨b, l, h, hWellFormed⟩

end OpenXJ380.UserStack
