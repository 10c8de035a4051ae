import NetProg.P4.SuperNode

set_option autoImplicit false

namespace NetProg.P4

open Memory

abbrev dataSize : Nat := 10000

abbrev dataAt : Nat := 12

def asInt (value : Int) : Int := value.bmod (2 ^ 32)

inductive FileRead where
  | data (bytes : List UInt8)
  | failed

def FileRead.bytes : FileRead → List UInt8
  | .data bytes => bytes
  | .failed => []

def FileRead.bytesRead : FileRead → Int
  | .data bytes => bytes.length
  | .failed => -1

def sendFile (fileResSuccessPkt : Block) : List FileRead → List (List UInt8) × Bool
  -- The packets that are written, and whether the loop has ended.
  | [] => ([], false)
  | r :: rest =>
    if r.bytesRead = 0 then ([], true)
    else
      let pktLen := (headerLen + r.bytesRead).toNat
      let pkt := store (store fileResSuccessPkt dataAt r.bytes) 0 (net32 (UInt32.ofNat pktLen))
      let (packets, ended) := sendFile pkt rest
      (load pkt 0 pktLen :: packets, ended)

-- The FILE_REQ case of `handleClientRequest` in `child_lib.c`: `size` is what `stat` says, if it succeeds.
def handleFileReq (id : UInt32) (unwritten : Block) (size : Option Nat) (opens : Bool) (reads : List FileRead) :
    List (List UInt8) × Bool :=
  let fileSize := match size with
    | some size => asInt size
    | none => -1
  if fileSize < 0 ∨ opens = false then ([headerPacket { totalLen := 12, id, msgType := fileResFail }], true)
  else sendFile (store (store unwritten 4 (net32 id)) 8 (net32 fileResSuccess)) reads

inductive PeerRead where
  | packet (bytes : List UInt8)
  -- the connection has been closed: 0, and the packet is as it was
  | closed
  | failed

structure Receiving where
  fileResSuccessPkt : Block
  fileBuffer : Block
  bytesStored : Nat

inductive Received where
  | waiting (r : Receiving)
  | complete (r : Receiving)
  | refused (r : Receiving)
  | broken (r : Receiving)

def Receiving.read (r : Receiving) : PeerRead → Option Receiving
  | .packet bytes =>
    some { r with fileResSuccessPkt := store r.fileResSuccessPkt 0 (bytes.take (headerLen + dataSize)) }
  | .closed => some r
  | .failed => none

def Receiving.storeData (fileSize : UInt32) (r : Receiving) : Run Receiving :=
  let dataLen := asInt ((loadHeader r.fileResSuccessPkt).totalLen - 12).toNat
  if 0 ≤ dataLen ∧ dataLen ≤ dataSize ∧ r.bytesStored + dataLen ≤ fileSize.toNat ∧ r.bytesStored + dataLen < 2 ^ 31 then
    .ok { r with fileBuffer := store r.fileBuffer r.bytesStored (load r.fileResSuccessPkt dataAt dataLen.toNat)
                 bytesStored := r.bytesStored + dataLen.toNat }
  else .error .fault

def Receiving.iterate (fileSize : UInt32) (r : Receiving) (read : PeerRead) : Run Received :=
  -- One iteration; the loop goes on when it is `waiting`.
  match r.read read with
  | none => .ok (.broken r)
  | some r =>
    if (loadHeader r.fileResSuccessPkt).msgType = fileResSuccess then
      match r.storeData fileSize with
      | .error stuck => .error stuck
      | .ok r => if r.bytesStored = fileSize.toNat then .ok (.complete r) else .ok (.waiting r)
    else .ok (.refused r)

def receiveLoop (fileSize : UInt32) : Receiving → List PeerRead → Run Received
  | r, [] => .ok (.waiting r)
  | r, read :: rest => match r.iterate fileSize read with
    | .ok (.waiting r) => receiveLoop fileSize r rest
    | ended => ended

def Receiving.start (fileResSuccessPkt fileBuffer : Block) : Receiving :=
  -- The loop at its start: both blocks are as `malloc` returned them.
  { fileResSuccessPkt, fileBuffer, bytesStored := 0 }

def resSuccessPacket (id : UInt32) (bytes : List UInt8) : List UInt8 :=
  net32 (UInt32.ofNat (headerLen + bytes.length)) ++ net32 id ++ net32 fileResSuccess ++ bytes

theorem resSuccessPacket_length (id : UInt32) (bytes : List UInt8) :
    (resSuccessPacket id bytes).length = headerLen + bytes.length := by
  simp only [resSuccessPacket, List.length_append, length_net32, headerLen]

def Chunk (bytes : List UInt8) : Prop := bytes ≠ [] ∧ bytes.length ≤ dataSize

instance (bytes : List UInt8) : Decidable (Chunk bytes) :=
  inferInstanceAs (Decidable (bytes ≠ [] ∧ bytes.length ≤ dataSize))

def fileReads (chunks : List (List UInt8)) : List FileRead := chunks.map .data ++ [.data []]

def fill (pkt : Block) (bytes : List UInt8) : Block :=
  store (store pkt dataAt bytes) 0 (net32 (UInt32.ofNat (headerLen + bytes.length)))

theorem sendFile_data {bytes : List UInt8} (nonempty : bytes ≠ []) (pkt : Block) (rest : List FileRead) :
    sendFile pkt (.data bytes :: rest) =
      (load (fill pkt bytes) 0 (headerLen + bytes.length) :: (sendFile (fill pkt bytes) rest).1,
        (sendFile (fill pkt bytes) rest).2) := by
  have more : (FileRead.data bytes).bytesRead ≠ 0 := by
    simpa [FileRead.bytesRead] using nonempty
  have length : ((headerLen : Int) + bytes.length).toNat = headerLen + bytes.length := by omega
  simp only [sendFile, if_neg more]
  simp only [FileRead.bytesRead, FileRead.bytes, length, fill]

theorem sendFile_packets {chunks : List (List UInt8)} (cut : ∀ bytes ∈ chunks, Chunk bytes) {pkt : Block}
    {id : UInt32}
    (prepared : load pkt 4 8 = net32 id ++ net32 fileResSuccess) :
    sendFile pkt (fileReads chunks) = (chunks.map (resSuccessPacket id), true) := by
  induction chunks generalizing pkt with
  | nil => simp [fileReads, sendFile, FileRead.bytesRead]
  | cons bytes rest ih =>
    have front : load (fill pkt bytes) 0 4 = net32 (UInt32.ofNat (headerLen + bytes.length)) := load_store _ _ _
    have middle : load (fill pkt bytes) 4 8 = net32 id ++ net32 fileResSuccess := by
      rw [fill, load_store_apart _ (by simp), load_store_apart _ (by simp), prepared]
    have data : load (fill pkt bytes) 12 bytes.length = bytes := by
      rw [fill, load_store_apart _ (by simp)]
      exact load_store _ _ _
    have whole : load (fill pkt bytes) 0 (headerLen + bytes.length) = resSuccessPacket id bytes := by
      rw [show headerLen + bytes.length = 4 + (8 + bytes.length) by simp only [headerLen]; omega, load_add, load_add,
        front, middle, data, resSuccessPacket]
      simp only [headerLen, List.append_assoc]
    have later := ih (fun bytes member => cut bytes (by simp [member])) middle
    have first := sendFile_data (cut bytes (by simp)).1 pkt (fileReads rest)
    rw [later, whole] at first
    exact first

structure Holds (pkt : Block) (bytes : List UInt8) : Prop where
  type : (loadHeader pkt).msgType = fileResSuccess
  totalLen : (loadHeader pkt).totalLen = UInt32.ofNat (headerLen + bytes.length)
  data : load pkt dataAt bytes.length = bytes

theorem holds_packet (pkt : Block) (id : UInt32) (bytes : List UInt8) :
    Holds (store pkt 0 (resSuccessPacket id bytes)) bytes := by
  have part := load_store_part pkt 0
  simp only [Nat.zero_add] at part
  constructor
  case type => exact load32_of (part (net32 _ ++ net32 id) (net32 fileResSuccess) bytes)
  case totalLen =>
    have first := part [] (net32 (UInt32.ofNat (headerLen + bytes.length))) (net32 id ++ (net32 fileResSuccess ++ bytes))
    refine load32_of (Eq.trans ?_ first)
    simp only [resSuccessPacket, List.nil_append, List.append_assoc, List.length_nil, length_net32]
  case data =>
    have last := part (net32 (UInt32.ofNat (headerLen + bytes.length)) ++ net32 id ++ net32 fileResSuccess) bytes []
    rwa [List.append_nil] at last

theorem asInt_small {value : Int} (low : 0 ≤ value) (high : value < 2 ^ 31) : asInt value = value := by
  simp only [asInt, Int.bmod]
  split_ifs <;> omega

theorem asInt_large {value : Int} (low : 2 ^ 31 ≤ value) (high : value < 2 ^ 32) : asInt value < 0 := by
  simp only [asInt, Int.bmod]
  split_ifs <;> omega

structure Stored (r : Receiving) (bytes : List UInt8) : Prop where
  count : r.bytesStored = bytes.length
  kept : load r.fileBuffer 0 bytes.length = bytes

section Receive

variable {fileSize : UInt32} {r : Receiving} {bytes last : List UInt8}

theorem Holds.dataLen (holds : Holds r.fileResSuccessPkt last) (chunk : Chunk last) :
    asInt ((loadHeader r.fileResSuccessPkt).totalLen - 12).toNat = last.length := by
  have short := chunk.2
  simp only [dataSize] at short
  have total : (UInt32.ofNat (headerLen + last.length)).toNat = headerLen + last.length :=
    UInt32.toNat_ofNat_of_lt' (by simp only [headerLen, UInt32.size]; omega)
  have data : ((loadHeader r.fileResSuccessPkt).totalLen - 12).toNat = last.length := by
    rw [holds.totalLen, UInt32.toNat_sub_of_le _ _ ?_, total]
    · simp [headerLen]
    · rw [UInt32.le_iff_toNat_le, total]
      simp [headerLen]
  rw [data, asInt_small] <;> omega

theorem storeData_ok (stored : Stored r bytes) (holds : Holds r.fileResSuccessPkt last) (chunk : Chunk last)
    (room : bytes.length + last.length ≤ fileSize.toNat) (small : fileSize.toNat < 2 ^ 31) :
    ∃ r', r.storeData fileSize = .ok r' ∧ r'.fileResSuccessPkt = r.fileResSuccessPkt ∧ Stored r' (bytes ++ last) := by
  have short := chunk.2
  simp only [dataSize] at short
  refine ⟨{ r with fileBuffer := store r.fileBuffer bytes.length last, bytesStored := bytes.length + last.length }, ?_,
    rfl, by simp, ?_⟩
  · simp only [Receiving.storeData, holds.dataLen chunk, stored.count]
    rw [if_pos ⟨by omega, by simp only [dataSize]; omega, by omega, by omega⟩, Int.toNat_natCast, holds.data]
  · exact load_store_append stored.kept last

theorem storeData_fault (stored : Stored r bytes) (holds : Holds r.fileResSuccessPkt last) (chunk : Chunk last)
    (full : fileSize.toNat < bytes.length + last.length) : r.storeData fileSize = .error .fault := by
  simp only [Receiving.storeData, holds.dataLen chunk, stored.count]
  exact if_neg (by omega)

theorem iterate_cases {read : PeerRead}
    (got : ∃ r₁, r.read read = some r₁ ∧ Stored r₁ bytes ∧ Holds r₁.fileResSuccessPkt last)
    (chunk : Chunk last) (small : fileSize.toNat < 2 ^ 31) :
    bytes.length + last.length ≤ fileSize.toNat ∧ (∃ r', Stored r' (bytes ++ last) ∧
        Holds r'.fileResSuccessPkt last ∧ r.iterate fileSize read =
          .ok (if bytes.length + last.length = fileSize.toNat then .complete r' else .waiting r')) ∨
      fileSize.toNat < bytes.length + last.length ∧ r.iterate fileSize read = .error .fault := by
  obtain ⟨r₁, reads, stored, holds⟩ := got
  by_cases room : bytes.length + last.length ≤ fileSize.toNat
  · obtain ⟨r', ran, same, stored'⟩ := storeData_ok stored holds chunk room small
    refine .inl ⟨room, r', stored', same ▸ holds, ?_⟩
    simp only [Receiving.iterate, reads, if_pos holds.type, ran, stored'.count, List.length_append]
    split_ifs <;> rfl
  · have full : fileSize.toNat < bytes.length + last.length := by omega
    refine .inr ⟨full, ?_⟩
    simp only [Receiving.iterate, reads, if_pos holds.type, storeData_fault stored holds chunk full]

theorem read_packet (stored : Stored r bytes) (id : UInt32) (chunk : Chunk last) :
    ∃ r₁, r.read (.packet (resSuccessPacket id last)) = some r₁ ∧ Stored r₁ bytes ∧ Holds r₁.fileResSuccessPkt last := by
  have whole : (resSuccessPacket id last).take (headerLen + dataSize) = resSuccessPacket id last := by
    refine List.take_of_length_le ?_
    rw [resSuccessPacket_length]
    exact Nat.add_le_add_left chunk.2 headerLen
  refine ⟨_, rfl, ⟨stored.count, stored.kept⟩, ?_⟩
  simp only [whole]
  exact holds_packet r.fileResSuccessPkt id last

theorem receiveLoop_packets (id : UInt32) {chunks : List (List UInt8)} (cut : ∀ bytes ∈ chunks, Chunk bytes)
    (stored : Stored r bytes) (more : bytes.length + chunks.flatten.length < fileSize.toNat)
    (small : fileSize.toNat < 2 ^ 31) :
    ∃ r', Stored r' (bytes ++ chunks.flatten) ∧ ∀ rest,
      receiveLoop fileSize r (chunks.map (fun c => .packet (resSuccessPacket id c)) ++ rest) =
        receiveLoop fileSize r' rest := by
  induction chunks generalizing r bytes with
  | nil => exact ⟨r, by simpa using stored, fun rest => rfl⟩
  | cons chunk rest ih =>
    simp only [List.flatten_cons, List.length_append] at more
    have first := cut chunk (by simp)
    rcases iterate_cases (read_packet stored id first) first small with ⟨-, r₁, stored₁, -, ran⟩ | ⟨full, -⟩
    · rw [if_neg (by omega)] at ran
      obtain ⟨r', stored', loop⟩ := ih (fun c member => cut c (by simp [member])) stored₁
        (by rw [List.length_append]; omega)
      exact ⟨r', by simpa using stored', fun reads => by simp [receiveLoop, ran, loop]⟩
    · omega

theorem read_closed (stored : Stored r bytes) (holds : Holds r.fileResSuccessPkt last) :
    ∃ r₁, r.read .closed = some r₁ ∧ Stored r₁ bytes ∧ Holds r₁.fileResSuccessPkt last := ⟨r, rfl, stored, holds⟩

theorem receiveLoop_closed (stored : Stored r bytes) (holds : Holds r.fileResSuccessPkt last) (chunk : Chunk last)
    (more : bytes.length < fileSize.toNat) (small : fileSize.toNat < 2 ^ 31) {n : Nat} {r' : Receiving}
    (ran : receiveLoop fileSize r (List.replicate n .closed) = .ok (.complete r')) :
    ∃ m, fileSize.toNat = bytes.length + m * last.length ∧
      Stored r' (bytes ++ (List.replicate m last).flatten) := by
  induction n generalizing r bytes with
  | zero => simp [receiveLoop] at ran
  | succ n ih =>
    rw [List.replicate_succ, receiveLoop] at ran
    rcases iterate_cases (read_closed stored holds) chunk small with ⟨room, r₁, stored₁, holds₁, next⟩ | ⟨-, next⟩
    · rw [next] at ran
      split_ifs at ran with full
      · simp only [Except.ok.injEq, Received.complete.injEq] at ran
        subst ran
        exact ⟨1, by omega, by simpa using stored₁⟩
      · obtain ⟨m, size, final⟩ := ih stored₁ holds₁ (by rw [List.length_append]; omega) ran
        refine ⟨m + 1, ?_, by simpa [List.replicate_succ] using final⟩
        rw [size, List.length_append]
        ring
    · simp [next] at ran

theorem receiveLoop_repeats (stored : Stored r bytes) (holds : Holds r.fileResSuccessPkt last) (chunk : Chunk last)
    (small : fileSize.toNat < 2 ^ 31) {m : Nat} (size : fileSize.toNat = bytes.length + (m + 1) * last.length) :
    ∃ r', receiveLoop fileSize r (List.replicate (m + 1) .closed) = .ok (.complete r') ∧
      Stored r' (bytes ++ (List.replicate (m + 1) last).flatten) := by
  have nonempty : 0 < last.length := List.length_pos_iff.mpr chunk.1
  induction m generalizing r bytes with
  | zero =>
    rcases iterate_cases (read_closed stored holds) chunk small with ⟨-, r₁, stored₁, -, next⟩ | ⟨full, -⟩
    · rw [if_pos (by omega)] at next
      exact ⟨r₁, by simp [receiveLoop, next], by simpa using stored₁⟩
    · omega
  | succ m ih =>
    have expanded : (m + 1 + 1) * last.length = last.length + (m + 1) * last.length := by ring
    have left : 0 < (m + 1) * last.length := Nat.mul_pos (Nat.succ_pos m) nonempty
    rcases iterate_cases (read_closed stored holds) chunk small with ⟨-, r₁, stored₁, holds₁, next⟩ | ⟨full, -⟩
    · rw [if_neg (by omega)] at next
      obtain ⟨r', ran, final⟩ := ih stored₁ holds₁ (by rw [List.length_append]; omega)
      refine ⟨r', ?_, by simpa [List.replicate_succ] using final⟩
      rw [List.replicate_succ, receiveLoop, next]
      exact ran
    · omega

end Receive

def cutReads (packets : List (List UInt8)) (k n : Nat) : List PeerRead :=
  -- The reads of the child when the connection closes behind the first `k` packets, as far as the
  -- `n`-th after them.
  (packets.take k).map .packet ++ List.replicate n .closed

theorem handleFileReq_serves (id : UInt32) (unwritten : Block) {chunks : List (List UInt8)}
    (cut : ∀ bytes ∈ chunks, Chunk bytes) {size : Nat} (regular : 0 ≤ asInt size) :
    handleFileReq id unwritten (some size) true (fileReads chunks) = (chunks.map (resSuccessPacket id), true) := by
  have prepared : load (store (store unwritten 4 (net32 id)) 8 (net32 fileResSuccess)) 4 8 =
      net32 id ++ net32 fileResSuccess := by
    rw [show 8 = 4 + 4 from rfl, load_add, load_store_apart _ (by simp)]
    exact congrArg₂ _ (load_store _ _ _) (load_store _ _ _)
  have served : ¬ (asInt size < 0 ∨ true = false) := by
    rintro (negative | impossible)
    · omega
    · cases impossible
  simp only [handleFileReq, if_neg served, sendFile_packets cut prepared]

theorem resSuccessPacket_type (id : UInt32) (bytes : List UInt8) :
    (loadHeader (ofBytes (resSuccessPacket id bytes))).msgType = fileResSuccess := by
  rw [ofBytes_eq]
  exact (holds_packet _ id bytes).type

theorem handleFileReq_packets {id : UInt32} {unwritten : Block} {opens : Bool} {chunks : List (List UInt8)}
    (cut : ∀ bytes ∈ chunks, Chunk bytes) (small : chunks.flatten.length < 2 ^ 32) {k : Nat}
    (success : ∀ packet ∈ (handleFileReq id unwritten (some chunks.flatten.length) opens (fileReads chunks)).1.take (k + 1),
      (loadHeader (ofBytes packet)).msgType = fileResSuccess) :
    (handleFileReq id unwritten (some chunks.flatten.length) opens (fileReads chunks)).1 =
        chunks.map (resSuccessPacket id) ∧ chunks.flatten.length < 2 ^ 31 := by
  by_cases fails : asInt chunks.flatten.length < 0 ∨ opens = false
  · simp only [handleFileReq, if_pos fails] at success
    have failed := success _ (by rw [List.take_succ_cons]; exact List.mem_cons_self)
    rw [headerPacket, loadHeader_congr fun j below => ofBytes_load _ below, loadHeader_storeHeader] at failed
    simp [fileResFail, fileResSuccess] at failed
  · rw [not_or, Bool.not_eq_false] at fails
    obtain ⟨regular, rfl⟩ := fails
    constructor
    · rw [handleFileReq_serves id unwritten cut (by omega)]
    · by_contra large
      exact regular (asInt_large (by omega) (by omega))

section Cut

variable (id : UInt32) {fileSize : UInt32} {before after : List (List UInt8)} {last : List UInt8}

theorem receiveLoop_cut (cut : ∀ bytes ∈ before ++ last :: after, Chunk bytes)
    (size : fileSize.toNat = (before ++ last :: after).flatten.length) (small : fileSize.toNat < 2 ^ 31)
    (pkt buffer : Block) :
    ∃ r, Stored r (before.flatten ++ last) ∧ Holds r.fileResSuccessPkt last ∧ ∀ n,
      receiveLoop fileSize (Receiving.start pkt buffer)
        (cutReads ((before ++ last :: after).map (resSuccessPacket id)) (before.length + 1) n) =
          if after.flatten = [] then .ok (.complete r) else receiveLoop fileSize r (List.replicate n .closed) := by
  have chunk := cut last (by simp)
  have nonempty : 0 < last.length := List.length_pos_iff.mpr chunk.1
  simp only [List.flatten_append, List.flatten_cons, List.length_append] at size
  have initially : Stored (Receiving.start pkt buffer) [] := ⟨rfl, rfl⟩
  have first : ∀ c ∈ before, Chunk c := fun c member => cut c (by simp [member])
  obtain ⟨r₁, stored₁, loop⟩ := receiveLoop_packets id first initially (by simp only [List.length_nil]; omega) small
  rcases iterate_cases (read_packet stored₁ id chunk) chunk small with ⟨-, r, stored, holds, next⟩ | ⟨full, -⟩
  · refine ⟨r, by simpa using stored, holds, fun n => ?_⟩
    have reads : cutReads ((before ++ last :: after).map (resSuccessPacket id)) (before.length + 1) n =
        before.map (fun c => .packet (resSuccessPacket id c)) ++
          (.packet (resSuccessPacket id last) :: List.replicate n .closed) := by
      simp [cutReads, List.take_append, Function.comp_def]
    rw [reads, loop, receiveLoop, next]
    simp only [List.nil_append] at size ⊢
    by_cases ended : after.flatten = []
    · rw [if_pos (by simp [size, ended]), if_pos ended]
    · have left : 0 < after.flatten.length := List.length_pos_iff.mpr ended
      rw [if_neg (by omega), if_neg ended]
  · simp only [List.nil_append] at full
    omega

end Cut

def Repeats (last rest : List UInt8) : Prop := ∃ m, rest = (List.replicate m last).flatten

theorem cut_download_exact (id : UInt32) (unwritten pkt buffer : Block) (opens : Bool) (before : List (List UInt8))
    (last : List UInt8) (after : List (List UInt8)) (cut : ∀ bytes ∈ before ++ last :: after, Chunk bytes)
    (small : (before ++ last :: after).flatten.length < 2 ^ 32)
    (success : ∀ packet ∈ (handleFileReq id unwritten (some (before ++ last :: after).flatten.length) opens
      (fileReads (before ++ last :: after))).1.take (before.length + 1),
      (loadHeader (ofBytes packet)).msgType = fileResSuccess) :
    (∀ n r, receiveLoop (UInt32.ofNat (before ++ last :: after).flatten.length) (Receiving.start pkt buffer)
        (cutReads (handleFileReq id unwritten (some (before ++ last :: after).flatten.length) opens
          (fileReads (before ++ last :: after))).1 (before.length + 1) n) = .ok (.complete r) →
        load r.fileBuffer 0 (before ++ last :: after).flatten.length = (before ++ last :: after).flatten) ↔
      (last.length ∣ after.flatten.length → Repeats last after.flatten) := by
  obtain ⟨packets, short⟩ := handleFileReq_packets cut small success
  have chunk := cut last (by simp)
  have nonempty : 0 < last.length := List.length_pos_iff.mpr chunk.1
  have size : (UInt32.ofNat (before ++ last :: after).flatten.length).toNat = (before ++ last :: after).flatten.length :=
    UInt32.toNat_ofNat_of_lt' small
  have file : (before ++ last :: after).flatten = before.flatten ++ last ++ after.flatten := by simp
  generalize UInt32.ofNat (before ++ last :: after).flatten.length = fileSize at size ⊢
  have fits : fileSize.toNat < 2 ^ 31 := by omega
  obtain ⟨r₀, stored, holds, loop⟩ := receiveLoop_cut id cut size fits pkt buffer
  simp only [packets, loop]
  rw [file] at size ⊢
  by_cases ended : after.flatten = []
  · refine iff_of_true (fun n r ran => ?_) fun _ => ⟨0, by simp [ended]⟩
    simp only [if_pos ended, Except.ok.injEq, Received.complete.injEq] at ran
    subst ran
    simpa [ended] using stored.kept
  · have left : 0 < after.flatten.length := List.length_pos_iff.mpr ended
    simp only [if_neg ended]
    constructor
    · rintro exactly ⟨m, multiple⟩
      obtain ⟨m, rfl⟩ : ∃ k, m = k + 1 := Nat.exists_eq_succ_of_ne_zero (by rintro rfl; omega)
      obtain ⟨r, ran, final⟩ := receiveLoop_repeats stored holds chunk fits (m := m) (by
        rw [size, List.length_append, multiple, Nat.mul_comm])
      have whole := exactly _ r ran
      have kept := final.kept
      rw [show (before.flatten ++ last ++ (List.replicate (m + 1) last).flatten).length =
        (before.flatten ++ last ++ after.flatten).length by simp [multiple, Nat.mul_comm], whole] at kept
      exact ⟨m + 1, List.append_cancel_left kept⟩
    · intro repeats n r ran
      obtain ⟨m, total, final⟩ := receiveLoop_closed stored holds chunk (by simp only [size, List.length_append]; omega)
        fits ran
      have rest : after.flatten.length = m * last.length := by
        rw [size, List.length_append] at total
        omega
      obtain ⟨m', same⟩ := repeats ⟨m, by rw [rest, Nat.mul_comm]⟩
      have equal : m' = m := by
        refine Nat.eq_of_mul_eq_mul_right nonempty ?_
        rw [← rest, same]
        simp
      subst equal
      rw [same]
      exact final.kept

theorem first_stored_twice (id : UInt32) (unwritten pkt buffer : Block) {first second : List UInt8}
    (cut : ∀ bytes ∈ [first, second], Chunk bytes) (same : first.length = second.length)
    (small : [first, second].flatten.length < 2 ^ 31) :
    (∀ packet ∈ (handleFileReq id unwritten (some [first, second].flatten.length) true (fileReads [first, second])).1.take 1,
      (loadHeader (ofBytes packet)).msgType = fileResSuccess) ∧
    ∃ r, receiveLoop (UInt32.ofNat [first, second].flatten.length) (Receiving.start pkt buffer)
      (cutReads (handleFileReq id unwritten (some [first, second].flatten.length) true (fileReads [first, second])).1 1 1) =
        .ok (.complete r) ∧ load r.fileBuffer 0 [first, second].flatten.length = first ++ first := by
  have size : (UInt32.ofNat [first, second].flatten.length).toNat = [first, second].flatten.length :=
    UInt32.toNat_ofNat_of_lt' (by simp only [UInt32.size]; omega)
  have total : [first, second].flatten.length = first.length + (0 + 1) * first.length := by simp [same]
  have nonempty : 0 < second.length := List.length_pos_iff.mpr (cut second (by simp)).1
  have fits : (UInt32.ofNat [first, second].flatten.length).toNat < 2 ^ 31 := by omega
  rw [handleFileReq_serves id unwritten cut (by rw [asInt_small (by omega) (by omega)]; omega)]
  refine ⟨by simp [resSuccessPacket_type], ?_⟩
  have chunked : ∀ bytes ∈ [] ++ first :: [second], Chunk bytes := cut
  obtain ⟨r₀, stored, holds, loop⟩ := receiveLoop_cut id chunked size fits pkt buffer
  obtain ⟨r, ran, final⟩ := receiveLoop_repeats stored holds (cut first (by simp)) fits (size.trans total)
  refine ⟨r, ?_, ?_⟩
  · refine (loop 1).trans (Eq.trans (if_neg ?_) ran)
    intro ended
    simp [List.flatten_cons] at ended
    simp [ended] at nonempty
  · have kept := final.kept
    simpa [same] using kept

theorem repeated_byte_stored : ∃ r, receiveLoop 2 (Receiving.start (fun _ => 0) fun _ => 0)
    (cutReads (handleFileReq 7 (fun _ => 0) (some 2) true (fileReads [[97], [97]])).1 1 1) = .ok (.complete r) ∧
      load r.fileBuffer 0 2 = [97, 97] := by
  have cut : ∀ bytes ∈ [[97], [(97 : UInt8)]], Chunk bytes := by decide
  obtain ⟨success, r, ran, -⟩ := first_stored_twice 7 (fun _ => 0) (fun _ => 0) (fun _ => 0) cut rfl (by decide)
  have whole := (cut_download_exact 7 (fun _ => 0) (fun _ => 0) (fun _ => 0) true [] [97] [[97]] cut (by decide)
    success).mpr fun _ => ⟨1, rfl⟩
  exact ⟨r, ran, whole 1 r ran⟩

-- The peer closes after 10000 of 20000 bytes, and the child stores the first half twice.
theorem half_file_stored_twice :
    ¬ ∀ (id : UInt32) (unwritten pkt buffer : Block) (opens : Bool) (chunks : List (List UInt8)) (k : Nat),
      (∀ bytes ∈ chunks, Chunk bytes) → chunks.flatten.length < 2 ^ 32 → 0 < k → k < chunks.length →
      (∀ packet ∈ (handleFileReq id unwritten (some chunks.flatten.length) opens (fileReads chunks)).1.take k,
        (loadHeader (ofBytes packet)).msgType = fileResSuccess) →
      ∀ n r, receiveLoop (UInt32.ofNat chunks.flatten.length) (Receiving.start pkt buffer)
          (cutReads (handleFileReq id unwritten (some chunks.flatten.length) opens (fileReads chunks)).1 k n) =
            .ok (.complete r) → load r.fileBuffer 0 chunks.flatten.length = chunks.flatten := by
  intro claimed
  have full : ∀ b : UInt8, Chunk (List.replicate dataSize b) := fun b => by simp [Chunk]
  have cut : ∀ bytes ∈ [List.replicate dataSize (97 : UInt8), List.replicate dataSize 98], Chunk bytes := by
    intro bytes member
    rcases List.mem_pair.mp member with rfl | rfl
    · exact full 97
    · exact full 98
  have length : [List.replicate dataSize (97 : UInt8), List.replicate dataSize 98].flatten.length = 20000 := by
    simp only [List.flatten_cons, List.length_append, List.length_replicate, List.flatten_nil, List.length_nil, dataSize]
  obtain ⟨success, r, ran, twice⟩ := first_stored_twice 7 (fun _ => 0) (fun _ => 0) (fun _ => 0) cut
    (by simp only [List.length_replicate]) (by omega)
  have whole := claimed 7 _ _ _ true _ 1 cut (by omega) (by decide) (by decide) success 1 r ran
  rw [twice] at whole
  have second := List.append_cancel_left (whole.trans (by rw [List.flatten_cons]))
  simp only [List.flatten_cons, List.flatten_nil, List.append_nil] at second
  have byte := List.replicate_right_inj (by decide) |>.mp second
  exact absurd byte (by decide)

end NetProg.P4
