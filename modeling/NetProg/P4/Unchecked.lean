import NetProg.P4.Get

set_option autoImplicit false

namespace NetProg.P4

open Memory

def Receiving.dataLen (r : Receiving) : Int := asInt ((loadHeader r.fileResSuccessPkt).totalLen - 12).toNat

structure Receiving.CopyFits (fileSize : UInt32) (r : Receiving) : Prop where
  -- The `memcpy` of a FILE_RES_SUCCESS packet, with `r` as the `switch` finds it.
  notNegative : 0 ≤ r.dataLen
  inPacket : r.dataLen ≤ dataSize
  inBuffer : r.bytesStored + r.dataLen ≤ fileSize.toNat
  -- `bytes_stored` is an int
  counted : r.bytesStored + r.dataLen < 2 ^ 31

def NeverOverruns (fileSize : UInt32) (r : Receiving) (reads : List PeerRead) : Prop :=
  ∀ before read after r₁ r₂, reads = before ++ read :: after → receiveLoop fileSize r before = .ok (.waiting r₁) →
    r₁.read read = some r₂ → (loadHeader r₂.fileResSuccessPkt).msgType = fileResSuccess → r₂.CopyFits fileSize

def PeerRead.into (read : PeerRead) (fileResSuccessPkt : Block) : Option Block :=
  match read with
  | .packet bytes => some (store fileResSuccessPkt 0 (bytes.take (headerLen + dataSize)))
  | .closed => some fileResSuccessPkt
  | .failed => none

def successLens (fileResSuccessPkt : Block) : List PeerRead → List Nat
  | [] => []
  | read :: rest => match read.into fileResSuccessPkt with
    | none => []
    | some pkt =>
      let hdr := loadHeader pkt
      if hdr.msgType = fileResSuccess then hdr.totalLen.toNat :: successLens pkt rest else []

def dataSum (lens : List Nat) : Nat := (lens.map (· - headerLen)).sum

-- Until `fileSize` bytes have come, every packet has a header and at most what is left.
def PacketsFit (fileSize stored : Nat) (lens : List Nat) : Prop :=
  ∀ before len after, lens = before ++ len :: after → (before = [] ∨ stored + dataSum before < fileSize) →
    headerLen ≤ len ∧ len ≤ headerLen + dataSize ∧ stored + dataSum before + (len - headerLen) ≤ fileSize ∧
      stored + dataSum before + (len - headerLen) < 2 ^ 31

theorem packetsFit_nil (fileSize stored : Nat) : PacketsFit fileSize stored [] := by
  intro before len after parts
  simp at parts

theorem packetsFit_cons {fileSize stored len : Nat} {rest : List Nat} :
    PacketsFit fileSize stored (len :: rest) ↔
      (headerLen ≤ len ∧ len ≤ headerLen + dataSize ∧ stored + (len - headerLen) ≤ fileSize ∧
        stored + (len - headerLen) < 2 ^ 31) ∧
      (stored + (len - headerLen) < fileSize → PacketsFit fileSize (stored + (len - headerLen)) rest) := by
  have sum (before : List Nat) :
      stored + dataSum (len :: before) = stored + (len - headerLen) + dataSum before := by
    simp only [dataSum, List.map_cons, List.sum_cons]
    omega
  constructor
  · intro fits
    refine ⟨by simpa [dataSum] using fits [] len rest rfl (.inl rfl), fun more => ?_⟩
    intro before len' after parts earlier
    have short : stored + (len - headerLen) + dataSum before < fileSize := by
      rcases earlier with rfl | short
      · simpa [dataSum] using more
      · exact short
    have fit := fits (len :: before) len' after (by rw [parts]; rfl) (.inr (by rw [sum]; exact short))
    rwa [sum] at fit
  · rintro ⟨first, later⟩ before len' after parts earlier
    cases before with
    | nil =>
      obtain ⟨rfl, rfl⟩ := List.cons.inj parts
      simpa [dataSum] using first
    | cons len before =>
      obtain ⟨rfl, rfl⟩ := List.cons.inj parts
      rcases earlier with impossible | short
      · cases impossible
      · rw [sum] at short ⊢
        exact later (by omega) before len' after rfl (.inr short)

section Overruns

variable {fileSize : UInt32} {r r' : Receiving} {read : PeerRead}

theorem read_into (r : Receiving) (read : PeerRead) :
    r.read read = (read.into r.fileResSuccessPkt).map fun pkt => { r with fileResSuccessPkt := pkt } := by
  cases read <;> rfl

theorem copyFits_iff : r.CopyFits fileSize ↔
    headerLen ≤ (loadHeader r.fileResSuccessPkt).totalLen.toNat ∧
      (loadHeader r.fileResSuccessPkt).totalLen.toNat ≤ headerLen + dataSize ∧
      r.bytesStored + ((loadHeader r.fileResSuccessPkt).totalLen.toNat - headerLen) ≤ fileSize.toNat ∧
      r.bytesStored + ((loadHeader r.fileResSuccessPkt).totalLen.toNat - headerLen) < 2 ^ 31 := by
  simp only [headerLen, dataSize]
  constructor
  · rintro ⟨notNegative, inPacket, inBuffer, counted⟩
    obtain ⟨n, length⟩ := Int.eq_ofNat_of_zero_le notNegative
    have total := asInt_wraps length
    rw [length] at inPacket inBuffer counted
    simp only [dataSize] at inPacket
    omega
  · rintro ⟨header, short, room, small⟩
    have data : r.dataLen = ((loadHeader r.fileResSuccessPkt).totalLen.toNat - 12 : Nat) := by
      have difference := UInt32.toNat_sub_of_le (loadHeader r.fileResSuccessPkt).totalLen 12
        (UInt32.le_iff_toNat_le.mpr (by simpa using header))
      simp only [UInt32.reduceToNat] at difference
      rw [Receiving.dataLen, difference, asInt_small (by omega) (by omega)]
    constructor
    case notNegative => omega
    case inPacket =>
      simp only [dataSize]
      omega
    case inBuffer => omega
    case counted => omega

theorem storeData_packet (ran : r.storeData fileSize = .ok r') : r'.fileResSuccessPkt = r.fileResSuccessPkt := by
  simp only [Receiving.storeData] at ran
  split_ifs at ran
  exact Except.ok.inj ran ▸ rfl

theorem storeData_fits (fits : r.CopyFits fileSize) :
    ∃ r', r.storeData fileSize = .ok r' ∧ r'.fileResSuccessPkt = r.fileResSuccessPkt ∧
      r'.bytesStored = r.bytesStored + ((loadHeader r.fileResSuccessPkt).totalLen.toNat - headerLen) := by
  have ran : ∃ r', r.storeData fileSize = .ok r' := by
    refine ⟨{ r with fileBuffer := store r.fileBuffer r.bytesStored (load r.fileResSuccessPkt dataAt r.dataLen.toNat)
                     bytesStored := r.bytesStored + r.dataLen.toNat }, ?_⟩
    simp only [Receiving.storeData]
    rw [if_pos ⟨fits.notNegative, fits.inPacket, fits.inBuffer, fits.counted⟩]
    rfl
  obtain ⟨r', ran⟩ := ran
  obtain ⟨n, length, count, -⟩ := storeData_stores ran
  refine ⟨r', ran, storeData_packet ran, ?_⟩
  rw [count, asInt_wraps length, headerLen, Nat.add_sub_cancel]

theorem copyFits_of_storeData (ran : r.storeData fileSize = .ok r') : r.CopyFits fileSize := by
  simp only [Receiving.storeData] at ran
  split_ifs at ran with inside
  exact ⟨inside.1, inside.2.1, inside.2.2.1, inside.2.2.2⟩

theorem neverOverruns_nil (fileSize : UInt32) (r : Receiving) : NeverOverruns fileSize r [] := by
  intro before read after r₁ r₂ parts
  simp at parts

theorem neverOverruns_cons {rest : List PeerRead} : NeverOverruns fileSize r (read :: rest) ↔
    (∀ r₂, r.read read = some r₂ → (loadHeader r₂.fileResSuccessPkt).msgType = fileResSuccess → r₂.CopyFits fileSize) ∧
      ∀ r', r.iterate fileSize read = .ok (.waiting r') → NeverOverruns fileSize r' rest := by
  constructor
  · intro never
    refine ⟨fun r₂ got type => never [] read rest r r₂ rfl rfl got type, fun r' ran => ?_⟩
    intro before read' after r₁ r₂ parts waiting got type
    refine never (read :: before) read' after r₁ r₂ (by rw [parts]; rfl) ?_ got type
    rw [receiveLoop, ran]
    exact waiting
  · rintro ⟨first, later⟩ before read' after r₁ r₂ parts waiting got type
    cases before with
    | nil =>
      obtain ⟨rfl, rfl⟩ := List.cons.inj parts
      obtain rfl : r = r₁ := by simpa [receiveLoop] using waiting
      exact first r₂ got type
    | cons read before =>
      obtain ⟨rfl, rfl⟩ := List.cons.inj parts
      rw [receiveLoop] at waiting
      cases ran : r.iterate fileSize read with
      | error stuck => simp [ran] at waiting
      | ok received =>
        rw [ran] at waiting
        cases received with
        | waiting r' => exact later r' ran before read' after r₁ r₂ rfl waiting got type
        | complete _ | refused _ | broken _ => simp at waiting

theorem iterate_fits {pkt : Block} (into : read.into r.fileResSuccessPkt = some pkt)
    (type : (loadHeader pkt).msgType = fileResSuccess)
    (fits : { r with fileResSuccessPkt := pkt }.CopyFits fileSize) :
    ∃ r', r'.fileResSuccessPkt = pkt ∧
      r'.bytesStored = r.bytesStored + ((loadHeader pkt).totalLen.toNat - headerLen) ∧
      r.iterate fileSize read = .ok (if r'.bytesStored = fileSize.toNat then .complete r' else .waiting r') := by
  obtain ⟨r', ran, same, count⟩ := storeData_fits fits
  refine ⟨r', same, count, ?_⟩
  simp only [Receiving.iterate, read_into, into, Option.map_some, if_pos type, ran]
  split_ifs <;> rfl

theorem neverOverruns_iff (fileSize : UInt32) (r : Receiving) (reads : List PeerRead) :
    NeverOverruns fileSize r reads ↔
      PacketsFit fileSize.toNat r.bytesStored (successLens r.fileResSuccessPkt reads) := by
  induction reads generalizing r with
  | nil => exact iff_of_true (neverOverruns_nil fileSize r) (packetsFit_nil _ _)
  | cons read rest ih =>
    rw [neverOverruns_cons, successLens]
    cases into : read.into r.fileResSuccessPkt with
    | none => simp [Receiving.iterate, read_into, into, packetsFit_nil]
    | some pkt =>
      by_cases type : (loadHeader pkt).msgType = fileResSuccess
      · have first : (∀ r₂, r.read read = some r₂ → (loadHeader r₂.fileResSuccessPkt).msgType = fileResSuccess →
            r₂.CopyFits fileSize) ↔ { r with fileResSuccessPkt := pkt }.CopyFits fileSize := by
          simp [read_into, into, type]
        simp only [if_pos type]
        rw [packetsFit_cons, first, copyFits_iff]
        refine and_congr_right fun fits => ?_
        obtain ⟨r', same, count, next⟩ := iterate_fits into type (copyFits_iff.mpr fits)
        simp only at fits
        rw [next, ← count, ← same, ← ih]
        split_ifs with full
        · exact iff_of_true (fun _ impossible => by cases impossible) fun short => absurd full (by omega)
        · constructor
          · exact fun later _ => later r' rfl
          · intro later r₁ waiting
            obtain rfl : r' = r₁ := by simpa using waiting
            exact later (by omega)
      · simp [Receiving.iterate, read_into, into, type, packetsFit_nil]

theorem neverOverruns_runs (fileSize : UInt32) (r : Receiving) (reads : List PeerRead) :
    NeverOverruns fileSize r reads ↔ ∃ exit, receiveLoop fileSize r reads = .ok exit := by
  induction reads generalizing r with
  | nil => exact iff_of_true (neverOverruns_nil fileSize r) ⟨.waiting r, rfl⟩
  | cons read rest ih =>
    rw [neverOverruns_cons, receiveLoop]
    cases next : r.iterate fileSize read with
    | error stuck =>
      refine iff_of_false (fun never => ?_) (by simp)
      simp only [Receiving.iterate] at next
      split at next
      next => cases next
      next r₁ got =>
        split_ifs at next with type
        obtain ⟨r', ran, -⟩ := storeData_fits (never.1 r₁ got type)
        rw [ran] at next
        simp only at next
        split_ifs at next
    | ok received =>
      have first : ∀ r₂, r.read read = some r₂ → (loadHeader r₂.fileResSuccessPkt).msgType = fileResSuccess →
          r₂.CopyFits fileSize := by
        intro r₂ got type
        cases ran : r₂.storeData fileSize with
        | error stuck => simp [Receiving.iterate, got, type, ran] at next
        | ok r' => exact copyFits_of_storeData ran
      simp only [Except.ok.injEq]
      cases received with
      | waiting r' =>
        rw [← ih]
        exact ⟨fun never => never.2 r' rfl, fun never => ⟨first, fun _ same => Received.waiting.inj same ▸ never⟩⟩
      | complete r' | refused r' | broken r' =>
        exact iff_of_true ⟨first, fun _ impossible => by cases impossible⟩ ⟨_, rfl⟩

end Overruns

theorem download_never_overrun_iff (fileSize : UInt32) (pkt buffer : Block) (reads : List PeerRead) :
    NeverOverruns fileSize (Receiving.start pkt buffer) reads ↔ PacketsFit fileSize.toNat 0 (successLens pkt reads) :=
  neverOverruns_iff fileSize (Receiving.start pkt buffer) reads

-- A file that has grown from one byte to two since it was registered.
theorem grown_file_overruns : ¬ ∀ (fileSize : UInt32) (pkt buffer : Block) (reads : List PeerRead),
    NeverOverruns fileSize (Receiving.start pkt buffer) reads := by
  intro claimed
  have fits := claimed 1 (fun _ => 0) (fun _ => 0) [.packet (resSuccessPacket 7 [97, 98])] [] _ [] _ _ rfl rfl rfl
    (by decide +kernel)
  have room := fits.inBuffer
  revert room
  decide +kernel

def firstReads (reads : Nat → FileRead) (n : Nat) : List FileRead := (List.range n).map reads

structure Carries (packet : List UInt8) (read : FileRead) : Prop where
  header : headerLen ≤ (loadHeader (ofBytes packet)).totalLen.toNat
  whole : (loadHeader (ofBytes packet)).totalLen.toNat = packet.length
  data : packet.drop headerLen = read.bytes

structure ServesFile (id : UInt32) (unwritten : Block) (size : Nat) (reads : Nat → FileRead) : Prop where
  ends : ∃ n, (handleFileReq id unwritten (some size) true (firstReads reads n)).2 = true
  carries : ∀ n k packet, (handleFileReq id unwritten (some size) true (firstReads reads n)).1[k]? = some packet →
    Carries packet (reads k)

def ReadToEnd (reads : Nat → FileRead) : Prop := ∃ n, reads n = .data [] ∧ ∀ k < n, reads k ≠ .failed

def FileRead.pktLen (read : FileRead) : Nat := (headerLen + read.bytesRead).toNat

def prepare (pkt : Block) (read : FileRead) : Block :=
  store (store pkt dataAt read.bytes) 0 (net32 (UInt32.ofNat read.pktLen))

theorem bytesRead_zero {read : FileRead} : read.bytesRead = 0 ↔ read = .data [] := by
  cases read with
  | data bytes => simp [FileRead.bytesRead]
  | failed => simp [FileRead.bytesRead]

theorem sendFile_more {read : FileRead} (more : read ≠ .data []) (pkt : Block) (rest : List FileRead) :
    sendFile pkt (read :: rest) = (load (prepare pkt read) 0 read.pktLen :: (sendFile (prepare pkt read) rest).1,
      (sendFile (prepare pkt read) rest).2) := by
  rw [sendFile, if_neg (mt bytesRead_zero.mp more)]
  rfl

theorem sendFile_end (pkt : Block) (rest : List FileRead) : sendFile pkt (.data [] :: rest) = ([], true) := by
  rw [sendFile, if_pos (bytesRead_zero.mpr rfl)]

theorem sendFile_ended (pkt : Block) (reads : List FileRead) : (sendFile pkt reads).2 = true ↔ .data [] ∈ reads := by
  induction reads generalizing pkt with
  | nil => simp [sendFile]
  | cons read rest ih =>
    by_cases last : read = .data []
    · subst last
      simp [sendFile_end]
    · rw [sendFile_more last, ih, List.mem_cons]
      exact (or_iff_right (Ne.symm last)).symm

theorem sendFile_packet (pkt : Block) (reads : List FileRead) {k : Nat} {packet : List UInt8} :
    (sendFile pkt reads).1[k]? = some packet → (∀ j ≤ k, reads[j]? ≠ some (.data [])) ∧
      ∃ pkt' read, reads[k]? = some read ∧ packet = load (prepare pkt' read) 0 read.pktLen := by
  induction reads generalizing pkt k with
  | nil => simp [sendFile]
  | cons read rest ih =>
    by_cases last : read = .data []
    · subst last
      simp [sendFile_end]
    · rw [sendFile_more last]
      intro sent
      cases k with
      | zero =>
        refine ⟨fun j first => ?_, pkt, read, rfl, (Option.some.inj sent).symm⟩
        obtain rfl := Nat.le_zero.mp first
        exact mt Option.some.inj last
      | succ k =>
        obtain ⟨before, found⟩ := ih (prepare pkt read) sent
        refine ⟨fun j bound => ?_, found⟩
        cases j with
        | zero => exact mt Option.some.inj last
        | succ j => exact before j (Nat.le_of_succ_le_succ bound)

theorem sendFile_sends (pkt : Block) (reads : List FileRead) {k : Nat} (here : k < reads.length)
    (before : ∀ j ≤ k, reads[j]? ≠ some (.data [])) : ∃ packet, (sendFile pkt reads).1[k]? = some packet := by
  induction reads generalizing pkt k with
  | nil => simp at here
  | cons read rest ih =>
    have more : read ≠ .data [] := fun last => before 0 (Nat.zero_le k) (congrArg some last)
    rw [sendFile_more more]
    cases k with
    | zero => exact ⟨_, rfl⟩
    | succ k => exact ih (prepare pkt read) (Nat.lt_of_succ_lt_succ here) fun j bound => before (j + 1) (by omega)

theorem carries_iff (pkt : Block) {read : FileRead} (fits : read.bytes.length ≤ dataSize) :
    Carries (load (prepare pkt read) 0 read.pktLen) read ↔ read ≠ .failed := by
  have first : load (prepare pkt read) 0 4 = net32 (UInt32.ofNat read.pktLen) := load_store _ _ _
  have low : 4 ≤ read.pktLen := by
    cases read with
    | data bytes =>
      simp only [FileRead.pktLen, FileRead.bytesRead, headerLen]
      omega
    | failed => decide
  have high : read.pktLen < 2 ^ 32 := by
    cases read with
    | data bytes =>
      simp only [FileRead.bytes, dataSize] at fits
      simp only [FileRead.pktLen, FileRead.bytesRead, headerLen]
      omega
    | failed => decide
  have total : (loadHeader (ofBytes (load (prepare pkt read) 0 read.pktLen))).totalLen.toNat = read.pktLen := by
    have same : load (ofBytes (load (prepare pkt read) 0 read.pktLen)) 0 4 = load (prepare pkt read) 0 4 :=
      load_congr fun j _ bound => ofBytes_load _ (by omega)
    rw [loadHeader, load32_of (same.trans first)]
    exact UInt32.toNat_ofNat_of_lt' high
  constructor
  · rintro carries rfl
    have header := carries.header
    rw [total] at header
    exact absurd header (by decide)
  · intro done
    cases read with
    | failed => exact absurd rfl done
    | data bytes =>
      have length : (FileRead.data bytes).pktLen = headerLen + bytes.length := by
        simp only [FileRead.pktLen, FileRead.bytesRead]
        omega
      constructor
      case header =>
        rw [total, length]
        exact Nat.le_add_right _ _
      case whole => rw [total, length_load]
      case data =>
        rw [length, load_add, List.drop_left' (length_load _ _ _), Nat.zero_add, prepare,
          load_store_apart _ (by simp [headerLen])]
        exact load_store _ _ _

theorem firstReads_get {reads : Nat → FileRead} {n k : Nat} {read : FileRead} :
    (firstReads reads n)[k]? = some read ↔ k < n ∧ reads k = read := by
  by_cases bound : k < n
  · simp [firstReads, bound]
  · simp [firstReads, bound]

theorem serves_iff (id : UInt32) (unwritten : Block) (size : Nat) (reads : Nat → FileRead) (passes : 0 ≤ asInt size)
    (fits : ∀ k, (reads k).bytes.length ≤ dataSize) : ServesFile id unwritten size reads ↔ ReadToEnd reads := by
  classical
  have served : ∀ l, handleFileReq id unwritten (some size) true l =
      sendFile (store (store unwritten 4 (net32 id)) 8 (net32 fileResSuccess)) l := by
    intro l
    have fine : ¬ (asInt size < 0 ∨ true = false) := by simpa using passes
    simp only [handleFileReq, if_neg fine]
  constructor
  · rintro ⟨⟨n, ended⟩, carries⟩
    simp only [served] at ended carries
    have last : ∃ n, reads n = .data [] := by
      obtain ⟨k, -, read⟩ := List.mem_map.mp ((sendFile_ended _ _).mp ended)
      exact ⟨k, read⟩
    -- The first read at the end of the file: every read before it is sent.
    refine ⟨Nat.find last, Nat.find_spec last, fun k early failed => ?_⟩
    have before : ∀ j ≤ k, (firstReads reads (k + 1))[j]? ≠ some (.data []) := fun j bound here =>
      Nat.find_min last (Nat.lt_of_le_of_lt bound early) (firstReads_get.mp here).2
    obtain ⟨packet, sent⟩ := sendFile_sends _ _ (by simp [firstReads]) before
    obtain ⟨-, pkt, read, here, rfl⟩ := sendFile_packet _ _ sent
    obtain rfl := (firstReads_get.mp here).2
    exact (carries_iff pkt (fits k)).mp (carries (k + 1) k _ sent) failed
  · rintro ⟨n, last, done⟩
    constructor
    case ends =>
      refine ⟨n + 1, ?_⟩
      rw [served, sendFile_ended]
      exact List.mem_map.mpr ⟨n, by simp, last⟩
    case carries =>
      intro m k packet sent
      rw [served] at sent
      obtain ⟨before, pkt, read, here, rfl⟩ := sendFile_packet _ _ sent
      obtain ⟨inside, rfl⟩ := firstReads_get.mp here
      have early : k < n := by
        by_contra late
        exact before n (by omega) (firstReads_get.mpr ⟨by omega, last⟩)
      exact (carries_iff pkt (fits k)).mpr (done k early)

def byteThenEnd : Nat → FileRead
  | 0 => .data [97]
  | _ => .data []

theorem one_byte_served : ServesFile 7 (fun _ => 0) 1 byteThenEnd := by
  refine (serves_iff 7 (fun _ => 0) 1 byteThenEnd (by decide) fun k => ?_).mpr ⟨1, rfl, fun k first => ?_⟩
  · cases k <;> simp [byteThenEnd, FileRead.bytes]
  · obtain rfl : k = 0 := by omega
    simp [byteThenEnd]

-- A directory passes both checks, and every `read` of it fails.
theorem directory_served_forever : ¬ ∀ (id : UInt32) (unwritten : Block) (size : Nat) (reads : Nat → FileRead),
    0 ≤ asInt size → (∀ k, (reads k).bytes.length ≤ dataSize) → ServesFile id unwritten size reads := by
  intro claimed
  obtain ⟨⟨n, ended⟩, -⟩ := claimed 7 (fun _ => 0) 4096 (fun _ => .failed) (by decide) fun _ => Nat.zero_le _
  have fine : ¬ (asInt (4096 : Nat) < 0 ∨ true = false) := by decide
  simp only [handleFileReq, if_neg fine, sendFile_ended] at ended
  simp [firstReads] at ended

end NetProg.P4
