/-
# The cache of compiled components

`CompiledComponentCache` of `cache.rs`: a map in memory over a directory of files, one for each
component, named by the printed form of its id.  That form shows only the first eight bytes.
-/
import Torvyn.Data.Hex
import Torvyn.Data.KeyMap

namespace Torvyn.Engine

/-! ## Names of files -/

/-- A content hash. -/
structure ComponentTypeId where
  bytes : List UInt8
  length_eq : bytes.length = 32
  deriving DecidableEq

/-- `Display`: the first eight bytes, and an ellipsis. -/
def ComponentTypeId.display (id : ComponentTypeId) : List Char :=
  Hex.encode (id.bytes.take 8) ++ ['…']

/-- The names on the way to a file. -/
abbrev FilePath := List String

/-- `disk_cache_path`. -/
def diskCachePath (dir : FilePath) (id : ComponentTypeId) : FilePath :=
  let hex := id.display
  dir ++ [String.ofList (hex.take 2), String.ofList (hex ++ ".bin".toList)]

/-- Two ids share a file exactly when they share their first eight bytes. -/
theorem diskCachePath_eq_iff {dir : FilePath} {a b : ComponentTypeId} :
    diskCachePath dir a = diskCachePath dir b ↔ a.bytes.take 8 = b.bytes.take 8 := by
  constructor
  · intro h
    rw [diskCachePath, diskCachePath, List.append_cancel_left_eq, List.cons.injEq, List.cons.injEq]
      at h
    have hname := List.append_cancel_right (String.ofList_injective h.2.1)
    exact Hex.encode_injective (List.append_cancel_right hname)
  · intro h
    rw [diskCachePath, diskCachePath, ComponentTypeId.display, ComponentTypeId.display, h]

/-! ## The cache -/

variable {C E : Type*}

/-- The engine: it compiles binaries, and turns components into bytes and back. -/
structure WasmEngine (C E : Type*) where
  compileComponent : List UInt8 → Except E C
  serializeComponent : C → Option (List UInt8)
  /-- What a file is read as: nothing where it is incompatible or corrupt. -/
  deserializeComponent : List UInt8 → Option C

/-- What is serialised can be read again. -/
def WasmEngine.Lossless (engine : WasmEngine C E) : Prop :=
  ∀ c bytes, engine.serializeComponent c = some bytes → engine.deserializeComponent bytes = some c

/-- What becomes of a write: it may fail at once, or after some of the bytes. -/
inductive WriteOutcome where
  | written
  | failed
  | torn (length : ℕ)
  deriving DecidableEq, Repr

/-- What the file system does during a call. -/
structure Faults where
  readFails : Bool
  removeFails : Bool
  write : WriteOutcome
  deriving DecidableEq, Repr

/-- The cache and the files under it. -/
structure CompiledComponentCache (C : Type*) where
  memory : KeyMap ComponentTypeId C
  diskDir : Option FilePath
  disk : FilePath → Option (List UInt8)

namespace CompiledComponentCache

/-- `CompiledComponentCache::new`, over a directory without files. -/
def new (diskDir : Option FilePath) : CompiledComponentCache C := ⟨∅, diskDir, fun _ => none⟩

/-- `std::fs::write`. -/
def writeFile (disk : FilePath → Option (List UInt8)) (path : FilePath) (bytes : List UInt8) :
    WriteOutcome → FilePath → Option (List UInt8)
  | .written => Function.update disk path (some bytes)
  | .failed => disk
  | .torn length => Function.update disk path (some (bytes.take length))

/-- `CompiledComponentCache::get`. -/
def get (s : CompiledComponentCache C) (engine : WasmEngine C E) (id : ComponentTypeId)
    (faults : Faults) : CompiledComponentCache C × Option C :=
  match s.memory.lookup id with
  | some compiled => (s, some compiled)
  | none =>
    match s.diskDir with
    | none => (s, none)
    | some dir =>
      let path := diskCachePath dir id
      match s.disk path with
      | none => (s, none)
      | some bytes =>
        if faults.readFails then (s, none)
        else
          match engine.deserializeComponent bytes with
          | some compiled => ({ s with memory := s.memory.insert id compiled }, some compiled)
          | none =>
            if faults.removeFails then (s, none)
            else ({ s with disk := Function.update s.disk path none }, none)

/-- `CompiledComponentCache::insert`. -/
def insert (s : CompiledComponentCache C) (engine : WasmEngine C E) (id : ComponentTypeId)
    (compiled : C) (faults : Faults) : CompiledComponentCache C :=
  let s := { s with memory := s.memory.insert id compiled }
  match s.diskDir with
  | none => s
  | some dir =>
    match engine.serializeComponent compiled with
    | none => s
    | some bytes =>
      { s with disk := writeFile s.disk (diskCachePath dir id) bytes faults.write }

/-- `CompiledComponentCache::clear`. -/
def clear (s : CompiledComponentCache C) : CompiledComponentCache C := { s with memory := ∅ }

/-- `CompiledComponentCache::compile_or_get`. -/
def compileOrGet (s : CompiledComponentCache C) (engine : WasmEngine C E)
    (computeTypeId : List UInt8 → ComponentTypeId) (bytes : List UInt8) (faults : Faults) :
    CompiledComponentCache C × Except E (ComponentTypeId × C) :=
  let id := computeTypeId bytes
  match s.get engine id faults with
  | (s, some compiled) => (s, .ok (id, compiled))
  | (s, none) =>
    match engine.compileComponent bytes with
    | .error e => (s, .error e)
    | .ok compiled => (s.insert engine id compiled faults, .ok (id, compiled))

/-- What happens to a cache; a restart of the process leaves the files. -/
inductive Action (C : Type*) where
  | insert (id : ComponentTypeId) (compiled : C) (faults : Faults)
  | get (id : ComponentTypeId) (faults : Faults)
  | clear
  | restart
  | compileOrGet (bytes : List UInt8) (faults : Faults)

variable (engine : WasmEngine C E) (computeTypeId : List UInt8 → ComponentTypeId)

/-- One action. -/
def step (s : CompiledComponentCache C) : Action C → CompiledComponentCache C
  | .insert id compiled faults => s.insert engine id compiled faults
  | .get id faults => (s.get engine id faults).1
  | .clear => s.clear
  | .restart => { s with memory := ∅ }
  | .compileOrGet bytes faults => (s.compileOrGet engine computeTypeId bytes faults).1

/-- What an action inserts, and under which id. -/
def inserted (s : CompiledComponentCache C) : Action C → List (ComponentTypeId × C)
  | .insert id compiled _ => [(id, compiled)]
  | .compileOrGet bytes faults =>
      match (s.get engine (computeTypeId bytes) faults).2, engine.compileComponent bytes with
      | none, .ok compiled => [(computeTypeId bytes, compiled)]
      | _, _ => []
  | _ => []

/-- What a sequence of actions inserts. -/
def insertedBy (s : CompiledComponentCache C) : List (Action C) → List (ComponentTypeId × C)
  | [] => []
  | action :: actions =>
      s.inserted engine computeTypeId action ++
        insertedBy (s.step engine computeTypeId action) actions

/-- A sequence of actions. -/
def run (s : CompiledComponentCache C) (actions : List (Action C)) : CompiledComponentCache C :=
  actions.foldl (step engine computeTypeId) s

/-! ## What a lookup finds -/

variable {engine} {computeTypeId} {R : ComponentTypeId → C → Prop} {K : Set ComponentTypeId}
  {dir : FilePath} {s : CompiledComponentCache C}

/-- No two of the ids share their first eight bytes. -/
def Apart (K : Set ComponentTypeId) : Prop :=
  ∀ a ∈ K, ∀ b ∈ K, a.bytes.take 8 = b.bytes.take 8 → a = b

/-- Every component in memory is related to its id, and every component in a file to an id with
that file. -/
structure Stores (engine : WasmEngine C E) (dir : FilePath) (K : Set ComponentTypeId)
    (R : ComponentTypeId → C → Prop) (s : CompiledComponentCache C) : Prop where
  diskDir : s.diskDir = some dir
  memory : ∀ id c, s.memory.lookup id = some c → R id c
  disk : ∀ path bytes c, s.disk path = some bytes → engine.deserializeComponent bytes = some c →
    ∃ id ∈ K, diskCachePath dir id = path ∧ R id c

theorem stores_new : (new (C := C) (some dir)).Stores engine dir K R where
  diskDir := rfl
  memory := fun _ _ h => by cases h
  disk := fun _ _ _ h => by cases h

/-- Forgetting what is in memory keeps the relation. -/
theorem Stores.clear (h : s.Stores engine dir K R) :
    ({ s with memory := ∅ } : CompiledComponentCache C).Stores engine dir K R where
  diskDir := h.diskDir
  memory := fun _ _ h => by cases h
  disk := h.disk

/-- So does keeping a related component in memory. -/
theorem Stores.remember (h : s.Stores engine dir K R) {id : ComponentTypeId} {c : C}
    (hc : R id c) :
    ({ s with memory := s.memory.insert id c } : CompiledComponentCache C).Stores engine dir K
      R where
  diskDir := h.diskDir
  memory := by
    intro id' c' hlookup
    by_cases heq : id' = id
    · subst heq
      rw [AList.lookup_insert] at hlookup
      cases hlookup
      exact hc
    · rw [AList.lookup_insert_ne heq] at hlookup
      exact h.memory id' c' hlookup
  disk := h.disk

/-- So does changing a file, when what can be read from it then is related to an id of the
file. -/
theorem Stores.write (h : s.Stores engine dir K R) {id : ComponentTypeId} (hid : id ∈ K)
    {content : Option (List UInt8)}
    (hcontent : ∀ bytes c, content = some bytes → engine.deserializeComponent bytes = some c →
      R id c) :
    ({ s with disk := Function.update s.disk (diskCachePath dir id) content } :
      CompiledComponentCache C).Stores engine dir K R where
  diskDir := h.diskDir
  memory := h.memory
  disk := by
    intro path bytes c hfile hread
    by_cases heq : path = diskCachePath dir id
    · subst heq
      simp only [Function.update_self] at hfile
      exact ⟨id, hid, rfl, hcontent bytes c hfile hread⟩
    · simp only [Function.update_of_ne heq] at hfile
      exact h.disk path bytes c hfile hread

/-- Where the ids are apart, a lookup finds only what is related to its id. -/
theorem Stores.get (h : s.Stores engine dir K R) (hapart : Apart K) {id : ComponentTypeId}
    (hid : id ∈ K) (faults : Faults) :
    (s.get engine id faults).1.Stores engine dir K R ∧
      ∀ c, (s.get engine id faults).2 = some c → R id c := by
  obtain ⟨memory, diskDir, disk⟩ := s
  obtain rfl : diskDir = some dir := h.diskDir
  rw [CompiledComponentCache.get]
  cases hmemory : memory.lookup id with
  | some compiled =>
    refine ⟨h, ?_⟩
    rintro c ⟨⟩
    exact h.memory id compiled hmemory
  | none =>
    cases hfile : disk (diskCachePath dir id) with
    | none =>
      simp only [hfile]
      exact ⟨h, fun c hc => by cases hc⟩
    | some bytes =>
      simp only [hfile]
      split
      · exact ⟨h, fun c hc => by cases hc⟩
      · cases hread : engine.deserializeComponent bytes with
        | some compiled =>
          -- The file is one of an id in play, and there is only one such id.
          have hrelated : R id compiled := by
            obtain ⟨id', hid', hpath, hR⟩ := h.disk _ bytes compiled hfile hread
            have heq := hapart id' hid' id hid (diskCachePath_eq_iff.mp hpath)
            exact heq ▸ hR
          refine ⟨h.remember hrelated, ?_⟩
          rintro c ⟨⟩
          exact hrelated
        | none =>
          simp only
          split
          · exact ⟨h, fun c hc => by cases hc⟩
          · refine ⟨h.write hid ?_, fun c hc => by cases hc⟩
            rintro bytes' c ⟨⟩

/-- Nothing can be read from what a failing write of the component leaves. -/
def HarmlessWrite (engine : WasmEngine C E) (compiled : C) : WriteOutcome → Prop
  | .torn length => ∀ bytes, engine.serializeComponent compiled = some bytes →
      engine.deserializeComponent (bytes.take length) = none
  | _ => True

/-- Inserting a related component keeps the relation. -/
theorem Stores.insert (h : s.Stores engine dir K R) (hlossless : engine.Lossless)
    {id : ComponentTypeId} (hid : id ∈ K) {compiled : C} (hR : R id compiled) {faults : Faults}
    (hharmless : HarmlessWrite engine compiled faults.write) :
    (s.insert engine id compiled faults).Stores engine dir K R := by
  obtain ⟨memory, diskDir, disk⟩ := s
  obtain rfl : diskDir = some dir := h.diskDir
  have hmemory := h.remember hR
  simp only [CompiledComponentCache.insert]
  cases hserialize : engine.serializeComponent compiled with
  | none => exact hmemory
  | some bytes =>
    cases hwrite : faults.write with
    | written =>
      apply hmemory.write hid
      rintro bytes' c ⟨⟩ hread
      rw [hlossless compiled bytes hserialize] at hread
      cases hread
      exact hR
    | failed => exact hmemory
    | torn length =>
      apply hmemory.write hid
      rintro bytes' c ⟨⟩ hread
      rw [hwrite] at hharmless
      rw [hharmless bytes hserialize] at hread
      cases hread

/-- The ids that an action names are in play, and so is the binary that it compiles. -/
def Within (computeTypeId : List UInt8 → ComponentTypeId) (K : Set ComponentTypeId)
    (B : Set (List UInt8)) : Action C → Prop
  | .insert id _ _ => id ∈ K
  | .get id _ => id ∈ K
  | .compileOrGet bytes _ => bytes ∈ B ∧ computeTypeId bytes ∈ K
  | _ => True

/-- Nothing can be read from what a failing write of the action leaves. -/
def Harmless (engine : WasmEngine C E) : Action C → Prop
  | .insert _ compiled faults => HarmlessWrite engine compiled faults.write
  | .compileOrGet bytes faults => ∀ compiled, engine.compileComponent bytes = .ok compiled →
      HarmlessWrite engine compiled faults.write
  | _ => True

/-- What the action inserts itself is the compilation of every binary in play with that id. -/
def Honest (engine : WasmEngine C E) (computeTypeId : List UInt8 → ComponentTypeId)
    (B : Set (List UInt8)) : Action C → Prop
  | .insert id compiled _ => ∀ bytes ∈ B, computeTypeId bytes = id →
      engine.compileComponent bytes = .ok compiled
  | _ => True

variable {B : Set (List UInt8)}

/-- Where the ids are apart, an action that inserts what is related to its id keeps the
relation. -/
theorem Stores.step (h : s.Stores engine dir K R) (hlossless : engine.Lossless)
    (hapart : Apart K) {action : Action C} (hwithin : Within computeTypeId K B action)
    (hharmless : Harmless engine action)
    (hinserted : ∀ p ∈ s.inserted engine computeTypeId action, R p.1 p.2) :
    (s.step engine computeTypeId action).Stores engine dir K R := by
  cases action with
  | insert id compiled faults =>
    exact h.insert hlossless hwithin (hinserted _ (List.mem_singleton_self _)) hharmless
  | get id faults => exact (h.get hapart hwithin faults).1
  | clear => exact h.clear
  | restart => exact h.clear
  | compileOrGet bytes faults =>
    obtain ⟨hstores, -⟩ := h.get hapart hwithin.2 faults
    simp only [CompiledComponentCache.step, compileOrGet]
    rw [inserted] at hinserted
    cases hget : s.get engine (computeTypeId bytes) faults with
    | mk s' found =>
      rw [hget] at hstores hinserted
      cases found with
      | some compiled => exact hstores
      | none =>
        cases hcompile : engine.compileComponent bytes with
        | error e => exact hstores
        | ok compiled =>
          rw [hcompile] at hinserted
          apply hstores.insert hlossless hwithin.2
          · exact hinserted _ (List.mem_singleton_self _)
          · exact hharmless compiled hcompile

/-- A run that inserts what is related to its id keeps the relation. -/
theorem Stores.run (h : s.Stores engine dir K R) (hlossless : engine.Lossless)
    (hapart : Apart K) {actions : List (Action C)}
    (hactions : ∀ a ∈ actions, Within computeTypeId K B a ∧ Harmless engine a)
    (hinserted : ∀ p ∈ s.insertedBy engine computeTypeId actions, R p.1 p.2) :
    (s.run engine computeTypeId actions).Stores engine dir K R := by
  induction actions generalizing s with
  | nil => exact h
  | cons action actions ih =>
    obtain ⟨hwithin, hharmless⟩ := hactions action List.mem_cons_self
    rw [insertedBy] at hinserted
    have hstep := h.step hlossless hapart hwithin hharmless fun p hp =>
      hinserted p (List.mem_append_left _ hp)
    apply ih hstep
    · exact fun a ha => hactions a (List.mem_cons_of_mem _ ha)
    · exact fun p hp => hinserted p (List.mem_append_right _ hp)

/-- When all insertions are honest, a component is inserted only under the id of a binary in play
when it is the compilation of that binary. -/
theorem honest_insertedBy (hinj : Set.InjOn computeTypeId B) {actions : List (Action C)}
    (hwithin : ∀ a ∈ actions, Within computeTypeId K B a)
    (hhonest : ∀ a ∈ actions, Honest engine computeTypeId B a) :
    ∀ p ∈ s.insertedBy engine computeTypeId actions, ∀ bytes ∈ B,
      computeTypeId bytes = p.1 → engine.compileComponent bytes = .ok p.2 := by
  induction actions generalizing s with
  | nil => exact fun p hp => absurd hp List.not_mem_nil
  | cons action actions ih =>
    intro p hp bytes hbytes hid
    obtain hp | hp := List.mem_append.mp hp
    · cases action with
      | insert id compiled faults =>
        rw [inserted, List.mem_singleton] at hp
        subst hp
        exact hhonest _ List.mem_cons_self bytes hbytes hid
      | compileOrGet bytes' faults =>
        have hbytes' := (hwithin _ List.mem_cons_self).1
        rw [inserted] at hp
        split at hp
        · rw [List.mem_singleton] at hp
          subst hp
          obtain rfl := hinj hbytes hbytes' hid
          assumption
        · cases hp
      | _ => cases hp
    · exact ih (fun a ha => hwithin a (List.mem_cons_of_mem _ ha))
        (fun a ha => hhonest a (List.mem_cons_of_mem _ ha)) p hp bytes hbytes hid

/-- After the actions, a lookup finds only what was inserted under its id. -/
def GetsInserted (engine : WasmEngine C E) (computeTypeId : List UInt8 → ComponentTypeId)
    (dir : FilePath) (K : Set ComponentTypeId) (actions : List (Action C)) : Prop :=
  ∀ id ∈ K, ∀ faults c,
    (((new (some dir)).run engine computeTypeId actions).get engine id faults).2 = some c →
      (id, c) ∈ (new (some dir)).insertedBy engine computeTypeId actions

/-- After the actions, a binary is compiled as if there were no cache. -/
def Compiles (engine : WasmEngine C E) (computeTypeId : List UInt8 → ComponentTypeId)
    (dir : FilePath) (K : Set ComponentTypeId) (B : Set (List UInt8))
    (actions : List (Action C)) : Prop :=
  ∀ bytes ∈ B, computeTypeId bytes ∈ K → ∀ faults,
    (((new (some dir)).run engine computeTypeId actions).compileOrGet engine computeTypeId bytes
      faults).2 = (engine.compileComponent bytes).map fun c => (computeTypeId bytes, c)

/-- **When the cache is transparent.**  Over every history of calls, restarts and failing writes
it returns only what was inserted under the id, and compiles as if it were not there, exactly
when no two ids in play share the eight bytes that name a file. -/
theorem transparent_iff (engine : WasmEngine C E) (hlossless : engine.Lossless)
    (hserialize : ∃ c bytes, engine.serializeComponent c = some bytes)
    (computeTypeId : List UInt8 → ComponentTypeId) (B : Set (List UInt8))
    (hinj : Set.InjOn computeTypeId B) (dir : FilePath) (K : Set ComponentTypeId) :
    (∀ actions : List (Action C),
      (∀ a ∈ actions, Within computeTypeId K B a ∧ Harmless engine a) →
        GetsInserted engine computeTypeId dir K actions ∧
          ((∀ a ∈ actions, Honest engine computeTypeId B a) →
            Compiles engine computeTypeId dir K B actions)) ↔
      Apart K := by
  constructor
  · intro h a ha b hb hbytes
    obtain ⟨c, bytes, hserialize⟩ := hserialize
    -- One id is inserted, and after a restart its file is found under the other.
    have hactions : ∀ action ∈ [Action.insert a c ⟨false, false, .written⟩, .restart],
        Within computeTypeId K B action ∧ Harmless engine action := by
      intro action hmem
      obtain rfl | rfl := List.mem_pair.mp hmem
      · exact ⟨ha, trivial⟩
      · exact ⟨trivial, trivial⟩
    have hpath : diskCachePath dir b = diskCachePath dir a := diskCachePath_eq_iff.mpr hbytes.symm
    have hmem := (h _ hactions).1 b hb ⟨false, false, .written⟩ c (by
      simp [run, step, new, insert, get, hserialize, writeFile, hpath, hlossless c bytes hserialize])
    simp only [insertedBy, inserted, List.append_nil, List.mem_singleton, Prod.mk.injEq] at hmem
    exact hmem.1.symm
  · intro hapart actions hactions
    constructor
    · intro id hid faults c hget
      have hstores : ((new (some dir)).run engine computeTypeId actions).Stores engine dir K
          fun id c => (id, c) ∈ (new (some dir)).insertedBy engine computeTypeId actions :=
        stores_new.run hlossless hapart hactions fun _ hp => hp
      exact (hstores.get hapart hid faults).2 c hget
    · intro hhonest bytes hbytes hid faults
      have hstores : ((new (some dir)).run engine computeTypeId actions).Stores engine dir K
          fun id c => ∀ bytes ∈ B, computeTypeId bytes = id →
            engine.compileComponent bytes = .ok c :=
        stores_new.run hlossless hapart hactions
          (honest_insertedBy hinj (fun a ha => (hactions a ha).1) hhonest)
      have hfound := (hstores.get hapart hid faults).2
      rw [compileOrGet]
      cases hget : ((new (some dir)).run engine computeTypeId actions).get engine
        (computeTypeId bytes) faults with
      | mk s' found =>
        rw [hget] at hfound
        cases found with
        | some compiled => rw [hfound compiled rfl bytes hbytes rfl]; rfl
        | none =>
          cases hcompile : engine.compileComponent bytes with
          | error e => rfl
          | ok compiled => rfl

/-- An engine whose components are the binaries. -/
def bytesEngine : WasmEngine (List UInt8) String := ⟨.ok, some, some⟩

/-- The digest of the empty binary. -/
def emptyId : ComponentTypeId :=
  ⟨[0xe3, 0xb0, 0xc4, 0x42, 0x98, 0xfc, 0x1c, 0x14, 0x9a, 0xfb, 0xf4, 0xc8, 0x99, 0x6f, 0xb9, 0x24,
    0x27, 0xae, 0x41, 0xe4, 0x64, 0x9b, 0x93, 0x4c, 0xa4, 0x95, 0x99, 0x1b, 0x78, 0x52, 0xb8, 0x55],
    rfl⟩

/-- An id with the same first eight bytes. -/
def aliasId : ComponentTypeId := ⟨emptyId.bytes.take 8 ++ List.replicate 24 0, rfl⟩

/-- With a single id in play the cache is transparent. -/
theorem transparent_iff_emptyId :
    (∀ actions : List (Action (List UInt8)),
      (∀ a ∈ actions, Within (fun _ => emptyId) {emptyId} {[]} a ∧ Harmless bytesEngine a) →
        GetsInserted bytesEngine (fun _ => emptyId) ["cache"] {emptyId} actions ∧
          ((∀ a ∈ actions, Honest bytesEngine (fun _ => emptyId) {[]} a) →
            Compiles bytesEngine (fun _ => emptyId) ["cache"] {emptyId} {[]} actions)) ↔
      Apart {emptyId} :=
  transparent_iff bytesEngine (fun _ _ h => by cases h; rfl) ⟨[], [], rfl⟩ (fun _ => emptyId) {[]}
    (Set.injOn_singleton _ _) ["cache"] {emptyId}

/-- A component is inserted, and the process restarts. -/
def restarted : List (Action (List UInt8)) :=
  [.insert emptyId [7] ⟨false, false, .written⟩, .restart]

/-- A lookup returns a component that was inserted under another id. -/
theorem get_returns_component_of_other_id :
    (((new (some ["cache"])).run bytesEngine (fun _ => emptyId) restarted).get bytesEngine aliasId
        ⟨false, false, .written⟩).2 = some [7] ∧
      (new (some ["cache"])).insertedBy bytesEngine (fun _ => emptyId) restarted =
        [(emptyId, [7])] ∧
      ¬ GetsInserted bytesEngine (fun _ => emptyId) ["cache"] Set.univ restarted := by
  have hget : (((new (some ["cache"])).run bytesEngine (fun _ => emptyId) restarted).get
      bytesEngine aliasId ⟨false, false, .written⟩).2 = some [7] := by decide
  have hinserted : (new (some ["cache"])).insertedBy bytesEngine (fun _ => emptyId) restarted =
      [(emptyId, [7])] := rfl
  refine ⟨hget, hinserted, fun h => ?_⟩
  have hmem := h aliasId trivial _ _ hget
  rw [hinserted] at hmem
  revert hmem
  decide

end CompiledComponentCache

end Torvyn.Engine
