import NetProg.P4.Download
import NetProg.Shared.Files

set_option autoImplicit false

namespace NetProg.P4

open Memory Files

structure Completes (fileSize : UInt32) (pkt buffer : Block) (packets : List (List UInt8)) (file : List UInt8) :
    Prop where
  -- The loop needs all the packets and no other read.
  complete : ∃ r, receiveLoop fileSize (Receiving.start pkt buffer) (packets.map .packet) = .ok (.complete r) ∧
    load r.fileBuffer 0 file.length = file
  notEarlier : ∀ k < packets.length, ∃ r,
    receiveLoop fileSize (Receiving.start pkt buffer) ((packets.take k).map .packet) = .ok (.waiting r)

theorem download_completes_iff (id : UInt32) (unwritten pkt buffer : Block) (chunks : List (List UInt8))
    (cut : ∀ bytes ∈ chunks, Chunk bytes) (small : chunks.flatten.length < 2 ^ 31) :
    ∃ packets, handleFileReq id unwritten (some chunks.flatten.length) true (fileReads chunks) = (packets, true) ∧
      (Completes (UInt32.ofNat chunks.flatten.length) pkt buffer packets chunks.flatten ↔ chunks.flatten ≠ []) := by
  have size : (UInt32.ofNat chunks.flatten.length).toNat = chunks.flatten.length :=
    UInt32.toNat_ofNat_of_lt' (by simp only [UInt32.size]; omega)
  refine ⟨_, handleFileReq_serves id unwritten cut (by rw [asInt_small (by omega) (by omega)]; omega), ?_⟩
  constructor
  · rintro completes empty
    obtain ⟨r, ran, -⟩ := completes.complete
    have noChunks : chunks = [] := by
      cases chunks with
      | nil => rfl
      | cons chunk rest => exact absurd (List.append_eq_nil_iff.mp empty).1 (cut chunk (by simp)).1
    simp [noChunks, receiveLoop] at ran
  · intro nonempty
    constructor
    case complete =>
      obtain ⟨before, last, rfl⟩ : ∃ before last, chunks = before ++ [last] := by
        rcases List.eq_nil_or_concat chunks with rfl | ⟨before, last, rfl⟩
        · simp at nonempty
        · exact ⟨before, last, List.concat_eq_append⟩
      obtain ⟨r, stored, -, loop⟩ := receiveLoop_cut id cut size (by omega) pkt buffer
      have ran := loop 0
      have whole : before.length + 1 = ((before ++ [last]).map (resSuccessPacket id)).length := by simp
      rw [cutReads, whole, List.take_length, List.replicate_zero, List.append_nil,
        if_pos List.flatten_nil] at ran
      exact ⟨r, ran, by simpa using stored.kept⟩
    case notEarlier =>
      intro k bound
      rw [List.length_map] at bound
      have later : 0 < (chunks.drop k).flatten.length := by
        rw [List.drop_eq_getElem_cons bound, List.flatten_cons, List.length_append]
        exact Nat.add_pos_left (List.length_pos_iff.mpr (cut chunks[k] (List.getElem_mem bound)).1) _
      have parts : (chunks.take k).flatten.length + (chunks.drop k).flatten.length = chunks.flatten.length := by
        rw [← List.length_append, ← List.flatten_append, List.take_append_drop]
      have initially : Stored (Receiving.start pkt buffer) [] := ⟨rfl, rfl⟩
      obtain ⟨r, -, loop⟩ := receiveLoop_packets id (fun c member => cut c (List.mem_of_mem_take member)) initially
        (show 0 + (chunks.take k).flatten.length < (UInt32.ofNat chunks.flatten.length).toNat by omega) (by omega)
      have ran := loop []
      rw [List.append_nil] at ran
      refine ⟨r, ?_⟩
      rw [← List.map_take, List.map_map]
      exact ran

theorem two_chunks_complete : ∃ packets, handleFileReq 7 (fun _ => 0) (some 2) true (fileReads [[97], [98]]) =
    (packets, true) ∧ Completes 2 (fun _ => 0) (fun _ => 0) packets [97, 98] := by
  obtain ⟨packets, sent, exactly⟩ := download_completes_iff 7 (fun _ => 0) (fun _ => 0) (fun _ => 0) [[97], [98]]
    (by decide) (by decide)
  exact ⟨packets, sent, exactly.mpr (by decide)⟩

theorem empty_file_waits :
    ¬ ∀ (id : UInt32) (unwritten pkt buffer : Block) (chunks : List (List UInt8)), (∀ bytes ∈ chunks, Chunk bytes) →
      chunks.flatten.length < 2 ^ 31 → ∃ packets,
        handleFileReq id unwritten (some chunks.flatten.length) true (fileReads chunks) = (packets, true) ∧
          Completes (UInt32.ofNat chunks.flatten.length) pkt buffer packets chunks.flatten := by
  intro claimed
  obtain ⟨packets, sent, completes⟩ := claimed 7 (fun _ => 0) (fun _ => 0) (fun _ => 0) [] (by simp) (by simp)
  have nothing : packets = [] := (congrArg Prod.fst sent).symm
  obtain ⟨r, ran, -⟩ := completes.complete
  simp [nothing, receiveLoop] at ran

structure GetRun where
  -- How the calls of one command turn out, and what the blocks of memory hold before.
  superConnects : Bool
  -- behind the `read` of the super node's answer
  searchAnsSuccessPkt : Block
  peerConnects : Bool
  fileResSuccessPkt : Block
  fileBuffer : Block
  reads : List PeerRead
  opens : Bool
  -- `write` stores all bytes, or fails and stores none
  writes : Bool

def GetRun.fileSize (run : GetRun) : UInt32 := load32 run.searchAnsSuccessPkt 36

def GetRun.start (run : GetRun) : Receiving := Receiving.start run.fileResSuccessPkt run.fileBuffer

def GetRun.transfer (run : GetRun) : Run (Option Received) :=
  if run.superConnects = false ∨ (loadHeader run.searchAnsSuccessPkt).msgType ≠ searchAnsSuccess then .ok none
  else
    match field run.searchAnsSuccessPkt 12 20 with
    | .error stuck => .error stuck
    | .ok _ =>
      if run.peerConnects = false then .ok none
      else (receiveLoop run.fileSize run.start run.reads).map some

def Received.storing : Received → Option Receiving
  -- `fileResFail` is only set where the packet is not a FILE_RES_SUCCESS.
  | .complete r => some r
  | .broken r => some r
  | .waiting _ => none
  | .refused _ => none

def GetRun.store (run : GetRun) (r : Receiving) (destFile : File UInt8) : File UInt8 :=
  if run.opens = false then destFile
  else if run.writes = false then some (openCreate destFile)
  else some (overwrite (openCreate destFile) (load r.fileBuffer 0 run.fileSize.toNat))

def GetRun.get (run : GetRun) (destFile : File UInt8) : Run (File UInt8) :=
  run.transfer.map fun transfer => match transfer.bind Received.storing with
    | some r => run.store r destFile
    | none => destFile

def PeerRead.data : PeerRead → List UInt8
  | .packet bytes =>
    let bytes := bytes.take (headerLen + dataSize)
    (bytes.drop headerLen).take ((loadHeader (ofBytes bytes)).totalLen.toNat - headerLen)
  | .closed => []
  | .failed => []

def receivedData (fileSize : UInt32) : Receiving → List PeerRead → List UInt8
  | _, [] => []
  | r, read :: rest => match r.iterate fileSize read with
    | .ok (.waiting r) => read.data ++ receivedData fileSize r rest
    | .ok (.complete _) => read.data
    | _ => []

def GetRun.received (run : GetRun) : List UInt8 := receivedData run.fileSize run.start run.reads

def GetRun.AllOrNothing (run : GetRun) (destFile after : File UInt8) : Prop :=
  after = destFile ∨ run.received.length = run.fileSize.toNat ∧ after = some run.received

section Received

variable {fileSize : UInt32} {r r' : Receiving} {read : PeerRead}

theorem storeData_stores (ran : r.storeData fileSize = .ok r') :
    ∃ n : Nat, asInt ((loadHeader r.fileResSuccessPkt).totalLen - 12).toNat = n ∧ r'.bytesStored = r.bytesStored + n ∧
      r'.bytesStored ≤ fileSize.toNat ∧ load r'.fileBuffer 0 r.bytesStored = load r.fileBuffer 0 r.bytesStored ∧
      load r'.fileBuffer r.bytesStored n = load r.fileResSuccessPkt dataAt n := by
  simp only [Receiving.storeData] at ran
  split_ifs at ran with inside
  obtain rfl := Except.ok.inj ran
  obtain ⟨n, length⟩ := Int.eq_ofNat_of_zero_le inside.1
  simp only [length] at inside ⊢
  refine ⟨n, rfl, rfl, ?_, ?_, ?_⟩
  · simp only [Int.toNat_natCast]
    omega
  · exact load_store_apart _ (by simp)
  · have stored := load_store r.fileBuffer r.bytesStored (load r.fileResSuccessPkt dataAt n)
    rwa [length_load] at stored

theorem asInt_wraps {value : UInt32} {n : Nat} (same : asInt (value - 12).toNat = n) : value.toNat = n + 12 := by
  have bound := value.toNat_lt
  by_cases low : 12 ≤ value
  · have difference := UInt32.toNat_sub_of_le value 12 low
    rw [UInt32.le_iff_toNat_le] at low
    simp only [UInt32.reduceToNat] at low difference
    by_cases small : (value - 12).toNat < 2 ^ 31
    · rw [asInt_small (by omega) (by omega)] at same
      omega
    · have negative := @asInt_large (value - 12).toNat (by omega) (by omega)
      omega
  · rw [UInt32.le_iff_toNat_le] at low
    simp only [UInt32.reduceToNat] at low
    have wrapped : (value - 12).toNat = 2 ^ 32 - 12 + value.toNat := by
      rw [UInt32.toNat_sub]
      simp only [UInt32.reduceToNat]
      omega
    have negative := @asInt_large (value - 12).toNat (by omega) (by omega)
    omega

theorem data_of_read (got : r.read read = some r') {n : Nat}
    (total : (loadHeader r'.fileResSuccessPkt).totalLen.toNat = n + 12) :
    read.data.length ≤ n ∧ (read.data.length = n → load r'.fileResSuccessPkt dataAt n = read.data) := by
  have nothing (empty : read.data = []) :
      read.data.length ≤ n ∧ (read.data.length = n → load r'.fileResSuccessPkt dataAt n = read.data) := by
    rw [empty]
    refine ⟨Nat.zero_le n, fun zero => ?_⟩
    obtain rfl : 0 = n := zero
    rfl
  cases read with
  | closed => exact nothing rfl
  | failed => cases got
  | packet bytes =>
    obtain rfl := Option.some.inj got
    by_cases header : headerLen ≤ (bytes.take (headerLen + dataSize)).length
    · have same : loadHeader (store r.fileResSuccessPkt 0 (bytes.take (headerLen + dataSize))) =
          loadHeader (ofBytes (bytes.take (headerLen + dataSize))) := by
        refine loadHeader_congr fun j below => ?_
        have inside : 0 ≤ j ∧ j < 0 + (bytes.take (headerLen + dataSize)).length := by omega
        simp only [store, if_pos inside, ofBytes, Nat.sub_zero]
      have data : (PeerRead.packet bytes).data = ((bytes.take (headerLen + dataSize)).drop headerLen).take n := by
        simp only [PeerRead.data, ← same]
        rw [total, Nat.add_sub_cancel]
      rw [data]
      refine ⟨List.length_take_le _ _, fun whole => ?_⟩
      rw [List.length_take, List.length_drop] at whole
      have within : headerLen + n ≤ (bytes.take (headerLen + dataSize)).length := by omega
      have inside := @load_store_within r.fileResSuccessPkt 0 headerLen n _ within
      rwa [Nat.zero_add] at inside
    · apply nothing
      simp only [PeerRead.data]
      rw [List.drop_of_length_le (by omega), List.take_nil]

structure Grows (fileSize : UInt32) (r r' : Receiving) (data : List UInt8) : Prop where
  -- The loop has stored at least as many bytes as have come; if they are as many, they are the same.
  more : r.bytesStored + data.length ≤ r'.bytesStored
  within : r.bytesStored ≤ fileSize.toNat → r'.bytesStored ≤ fileSize.toNat
  bytes : r'.bytesStored = r.bytesStored + data.length →
    load r'.fileBuffer 0 r'.bytesStored = load r.fileBuffer 0 r.bytesStored ++ data

theorem Grows.refl (fileSize : UInt32) (r : Receiving) : Grows fileSize r r [] := by
  constructor <;> simp

theorem Grows.trans {r₁ r₂ r₃ : Receiving} {first second : List UInt8} (one : Grows fileSize r₁ r₂ first)
    (two : Grows fileSize r₂ r₃ second) : Grows fileSize r₁ r₃ (first ++ second) := by
  have before := one.more
  have after := two.more
  constructor
  case more =>
    rw [List.length_append]
    omega
  case within => exact fun inside => two.within (one.within inside)
  case bytes =>
    intro exactly
    rw [List.length_append] at exactly
    rw [two.bytes (by omega), one.bytes (by omega), List.append_assoc]

theorem storeData_grows (got : r.read read = some r') {r'' : Receiving} (ran : r'.storeData fileSize = .ok r'') :
    Grows fileSize r r'' read.data := by
  obtain ⟨n, length, count, within, before, stored⟩ := storeData_stores ran
  obtain ⟨short, same⟩ := data_of_read got (asInt_wraps length)
  have kept : r'.bytesStored = r.bytesStored ∧ r'.fileBuffer = r.fileBuffer := by
    cases read with
    | failed => cases got
    | closed => exact Option.some.inj got ▸ ⟨rfl, rfl⟩
    | packet bytes => exact Option.some.inj got ▸ ⟨rfl, rfl⟩
  rw [kept.1] at count before stored
  rw [kept.2] at before
  constructor
  case more => omega
  case within => exact fun _ => within
  case bytes =>
    intro exactly
    rw [count, load_add, before, Nat.zero_add, stored, same (by omega)]

theorem iterate_grows (ran : r.iterate fileSize read = .ok (.waiting r') ∨ r.iterate fileSize read = .ok (.complete r')) :
    Grows fileSize r r' read.data := by
  cases got : r.read read with
  | none => simp [Receiving.iterate, got] at ran
  | some r₁ =>
    simp only [Receiving.iterate, got] at ran
    split_ifs at ran
    · cases stores : r₁.storeData fileSize with
      | error stuck => simp [stores] at ran
      | ok r₂ =>
        have same : r₂ = r' := by
          simp only [stores] at ran
          split_ifs at ran <;> simpa using ran
        exact storeData_grows got (same ▸ stores)
    · simp at ran

theorem receiveLoop_grows {exit : Received} {reads : List PeerRead}
    (ran : receiveLoop fileSize r reads = .ok exit) (stores : exit.storing = some r') :
    Grows fileSize r r' (receivedData fileSize r reads) := by
  induction reads generalizing r with
  | nil =>
    obtain rfl := Except.ok.inj ran
    cases stores
  | cons read rest ih =>
    rw [receiveLoop] at ran
    rw [receivedData]
    cases next : r.iterate fileSize read with
    | error stuck => simp [next] at ran
    | ok received =>
      rw [next] at ran
      cases received with
      | waiting r₁ => exact (iterate_grows (.inl next)).trans (ih ran)
      | complete r₁ =>
        obtain rfl := Except.ok.inj ran
        obtain rfl := Option.some.inj stores
        exact iterate_grows (.inr next)
      | refused r₁ =>
        obtain rfl := Except.ok.inj ran
        cases stores
      | broken r₁ =>
        obtain rfl := Except.ok.inj ran
        obtain rfl := Option.some.inj stores
        have same : r₁ = r := by
          simp only [Receiving.iterate] at next
          split at next
          next => simpa using next.symm
          next =>
            split_ifs at next
            · split at next
              next => cases next
              next => split_ifs at next <;> cases next
            · cases next
        rw [same]
        exact .refl fileSize r

end Received

inductive GetRun.Stores (run : GetRun) (r : Receiving) (destFile : File UInt8) : Prop where
  | closed (fails : run.opens = false) : Stores run r destFile
  | unwritten (fails : run.writes = false) (there : destFile ≠ none ∨ run.fileSize = 0) : Stores run r destFile
  | received (writes : run.writes = true) (all : run.received.length = run.fileSize.toNat)
      (short : (openCreate destFile).length ≤ run.fileSize.toNat) : Stores run r destFile
  | already (old : List UInt8) (there : destFile = some old)
      (begins : load r.fileBuffer 0 run.fileSize.toNat <+: old) : Stores run r destFile

theorem transfer_grows {run : GetRun} {transfer : Option Received} (ran : run.transfer = .ok transfer)
    {r : Receiving} (stores : transfer.bind Received.storing = some r) : Grows run.fileSize run.start r run.received := by
  simp only [GetRun.transfer] at ran
  split at ran
  next =>
    obtain rfl := Except.ok.inj ran
    cases stores
  next =>
    split at ran
    next => cases ran
    next =>
      split at ran
      next =>
        obtain rfl := Except.ok.inj ran
        cases stores
      next =>
        cases loop : receiveLoop run.fileSize run.start run.reads with
        | error stuck => simp [loop, Except.map] at ran
        | ok exit =>
          rw [loop] at ran
          obtain rfl := Except.ok.inj ran
          exact receiveLoop_grows loop stores

theorem store_iff {run : GetRun} {r : Receiving} (grows : Grows run.fileSize run.start r run.received)
    (destFile : File UInt8) : run.AllOrNothing destFile (run.store r destFile) ↔ run.Stores r destFile := by
  have more : run.received.length ≤ r.bytesStored := by simpa [GetRun.start, Receiving.start] using grows.more
  have within : r.bytesStored ≤ run.fileSize.toNat := grows.within (Nat.zero_le _)
  have length : (load r.fileBuffer 0 run.fileSize.toNat).length = run.fileSize.toNat := length_load _ _ _
  have bytes (all : run.received.length = run.fileSize.toNat) : load r.fileBuffer 0 run.fileSize.toNat = run.received := by
    have stored : r.bytesStored = run.fileSize.toNat := by omega
    have same := grows.bytes (by simp only [GetRun.start, Receiving.start]; omega)
    rwa [stored] at same
  constructor
  · intro fine
    by_cases opens : run.opens = false
    · exact .closed opens
    by_cases writes : run.writes = false
    · refine .unwritten writes ?_
      by_contra absent
      rw [not_or, not_not] at absent
      obtain ⟨rfl, announced⟩ := absent
      simp only [GetRun.store, if_neg opens, if_pos writes, openCreate] at fine
      rcases fine with created | ⟨all, stored⟩
      · cases created
      · have unreceived : run.received = [] := (Option.some.inj stored).symm
        rw [unreceived] at all
        exact announced (UInt32.toNat_inj.mp all.symm)
    · simp only [GetRun.store, if_neg opens, if_neg writes] at fine
      rcases fine with same | ⟨all, stored⟩
      · cases destFile with
        | none => cases same
        | some old => exact .already old rfl (overwrite_same_iff.mp (Option.some.inj same))
      · refine .received (by simpa using writes) all ?_
        rw [bytes all, Option.some.injEq, overwrite_exact_iff] at stored
        omega
  · intro stores
    by_cases opens : run.opens = false
    · exact .inl (if_pos opens)
    rw [GetRun.store, if_neg opens]
    by_cases writes : run.writes = false
    · rw [if_pos writes]
      cases destFile with
      | some old => exact .inl rfl
      | none =>
        have empty : run.fileSize.toNat = 0 := by
          cases stores with
          | closed fails => exact absurd fails opens
          | unwritten fails there =>
            have zero : run.fileSize = 0 := by simpa using there
            rw [zero]
            rfl
          | received does => simp [writes] at does
          | already old there => cases there
        have unreceived : run.received = [] := List.eq_nil_of_length_eq_zero (by omega)
        exact .inr ⟨by rw [unreceived, empty]; rfl, by rw [unreceived]; rfl⟩
    · rw [if_neg writes]
      cases stores with
      | closed fails => exact absurd fails opens
      | unwritten fails => exact absurd fails writes
      | received does all short =>
        refine .inr ⟨all, ?_⟩
        rw [bytes all, overwrite_exact_iff.mpr (by omega)]
      | already old there begins =>
        subst there
        exact .inl (congrArg some (overwrite_same_iff.mpr begins))

theorem get_all_or_nothing_iff (run : GetRun) (destFile : File UInt8) :
    (∃ after, run.get destFile = .ok after ∧ run.AllOrNothing destFile after) ↔
      ∃ transfer, run.transfer = .ok transfer ∧
        ∀ r, transfer.bind Received.storing = some r → run.Stores r destFile := by
  simp only [GetRun.get]
  cases ran : run.transfer with
  | error stuck => simp [Except.map]
  | ok transfer =>
    simp only [Except.map, Except.ok.injEq, exists_eq_left']
    cases stores : transfer.bind Received.storing with
    | none => exact iff_of_true (.inl rfl) fun r impossible => by cases impossible
    | some r =>
      rw [store_iff (transfer_grows ran stores)]
      exact ⟨fun fine r' same => Option.some.inj same ▸ fine, fun fine => fine r rfl⟩

def oneByte : GetRun where
  superConnects := true
  searchAnsSuccessPkt := store (storeHeader (fun _ => 0) { totalLen := 40, id := 3, msgType := searchAnsSuccess }) 36 (net32 1)
  peerConnects := true
  fileResSuccessPkt := fun _ => 0
  fileBuffer := fun _ => 0
  reads := [.packet (resSuccessPacket 7 [97])]
  opens := true
  writes := true

-- A file of one byte is downloaded over one of three bytes, of which the last two stay.
theorem longer_file_stays : ¬ ∀ (run : GetRun) (destFile : File UInt8),
    ∃ after, run.get destFile = .ok after ∧ run.AllOrNothing destFile after := by
  intro claimed
  obtain ⟨after, ran, fine⟩ := claimed oneByte (some [1, 2, 3])
  have stored : oneByte.get (some [1, 2, 3]) = .ok (some [97, 2, 3]) := by decide +kernel
  have received : oneByte.received = [97] := by decide +kernel
  obtain rfl := Except.ok.inj (ran.symm.trans stored)
  rcases fine with same | ⟨-, same⟩
  · exact absurd same (by decide)
  · rw [received] at same
    exact absurd same (by decide)

end NetProg.P4
