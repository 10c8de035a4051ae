import NetProg.P4.FileTable
import NetProg.Shared.Memory

set_option autoImplicit false

namespace NetProg.P4

open Memory

abbrev headerLen : Nat := 12
abbrev maxFiles : Nat := 100

def helloFromChild : UInt32 := 0x10
def helloFromSuper : UInt32 := 0x11
def helloSuperToSuper : UInt32 := 0x12
def fileInfo : UInt32 := 0x20
def fileInfoRecvSuccess : UInt32 := 0x21
def fileInfoRecvError : UInt32 := 0x22
def searchQuery : UInt32 := 0x30
def searchAnsSuccess : UInt32 := 0x31
def searchAnsFail : UInt32 := 0x32
def fileResSuccess : UInt32 := 0x41
def fileResFail : UInt32 := 0x42
def fileInfoShare : UInt32 := 0x50
def fileInfoShareSuccess : UInt32 := 0x51
def fileInfoShareError : UInt32 := 0x52

structure Header where
  totalLen : UInt32
  id : UInt32
  msgType : UInt32
deriving DecidableEq, Repr

def storeHeader (pkt : Block) (hdr : Header) : Block :=
  store (store (store pkt 0 (net32 hdr.totalLen)) 4 (net32 hdr.id)) 8 (net32 hdr.msgType)

def loadHeader (pkt : Block) : Header :=
  { totalLen := load32 pkt 0, id := load32 pkt 4, msgType := load32 pkt 8 }

def headerPacket (hdr : Header) : List UInt8 := load (storeHeader (fun _ => 0) hdr) 0 headerLen

abbrev fileNumAt : Nat := 12
abbrev filesAt : Nat := 16

abbrev fileInformationSize : Nat := 100

abbrev fileInfoStoreSize : Nat := 124

structure FileInformation where
  fileName : List UInt8
  fileSize : UInt32
deriving DecidableEq, Repr

def storeEntries {α : Type} (size : Nat) (write : Block → Nat → α → Block) : Block → Nat → List α → Block
  | pkt, _, [] => pkt
  | pkt, i, value :: rest => storeEntries size write (write pkt (filesAt + size * i) value) (i + 1) rest

def storeFileInformation (pkt : Block) (start : Nat) (file : FileInformation) : Block :=
  store (storeString pkt start file.fileName) (start + 96) (net32 file.fileSize)

def storeFileInfo (pkt : Block) (start : Nat) (info : FileInfoStore) : Block :=
  let named := storeString pkt start info.fileName
  let sized := store named (start + 96) (net32 info.fileSize)
  store (storeString sized (start + 100) info.ipAddr) (start + 120) (net32 info.portNum)

def helloFromChildPacket (id portNum : UInt32) : List UInt8 :=
  load (store (storeHeader (fun _ => 0) { totalLen := 16, id, msgType := helloFromChild }) 12 (net32 portNum)) 0 16

def storeCount (pkt : Block) (hdr : Header) (fileNum : UInt32) : Block :=
  store (storeHeader pkt hdr) fileNumAt (net32 fileNum)

def entriesHeader (size : Nat) (id msgType : UInt32) (count : Nat) : Header :=
  { totalLen := UInt32.ofNat (headerLen + 4 + count * size), id, msgType }

def entriesPacket {α : Type} (size : Nat) (write : Block → Nat → α → Block) (unwritten : Block) (id msgType : UInt32)
    (values : List α) : Block :=
  let counted := storeCount unwritten (entriesHeader size id msgType values.length) (UInt32.ofNat values.length)
  storeEntries size write counted 0 values

def fileInfoPacket (unwritten : Block) (id : UInt32) (files : List FileInformation) : List UInt8 :=
  load (entriesPacket fileInformationSize storeFileInformation unwritten id fileInfo files) 0
    (headerLen + 4 + files.length * fileInformationSize)

def searchQueryPacket (unwritten : Block) (id : UInt32) (fileName : List UInt8) : List UInt8 :=
  load (storeString (storeHeader unwritten { totalLen := 108, id, msgType := searchQuery }) 12 fileName) 0 108

theorem loadHeader_storeHeader (pkt : Block) (hdr : Header) : loadHeader (storeHeader pkt hdr) = hdr := by
  have first : load (storeHeader pkt hdr) 0 4 = net32 hdr.totalLen := by
    rw [storeHeader, load_store_apart _ (by simp), load_store_apart _ (by simp)]
    exact load_store _ _ _
  have second : load (storeHeader pkt hdr) 4 4 = net32 hdr.id := by
    rw [storeHeader, load_store_apart _ (by simp)]
    exact load_store _ _ _
  have third : load (storeHeader pkt hdr) 8 4 = net32 hdr.msgType := load_store _ _ _
  simp [loadHeader, load32_of first, load32_of second, load32_of third]

section Entries

variable {α : Type} {size : Nat} {write : Block → Nat → α → Block}

def Confined (size : Nat) (write : Block → Nat → α → Block) (value : α) : Prop :=
  ∀ pkt start j, j < start ∨ start + size ≤ j → write pkt start value j = pkt j

theorem storeEntries_below {values : List α} (confined : ∀ value ∈ values, Confined size write value) (pkt : Block)
    {i j : Nat} (below : j < filesAt + size * i) : storeEntries size write pkt i values j = pkt j := by
  induction values generalizing pkt i with
  | nil => rfl
  | cons value rest ih =>
    have further : j < filesAt + size * (i + 1) := by
      rw [Nat.mul_add]
      omega
    rw [storeEntries, ih (fun v member => confined v (by simp [member])) _ further]
    exact confined value (by simp) _ _ _ (.inl below)

theorem storeEntries_at {values : List α} (confined : ∀ value ∈ values, Confined size write value) (pkt : Block)
    (i k : Nat) (inside : k < values.length) :
    ∃ before, ∀ j, filesAt + size * (i + k) ≤ j → j < filesAt + size * (i + k) + size →
      storeEntries size write pkt i values j = write before (filesAt + size * (i + k)) values[k] j := by
  induction values generalizing pkt i k with
  | nil => simp at inside
  | cons value rest ih =>
    have others : ∀ v ∈ rest, Confined size write v := fun v member => confined v (by simp [member])
    cases k with
    | zero =>
      refine ⟨pkt, fun j low high => ?_⟩
      rw [Nat.add_zero] at low high ⊢
      exact storeEntries_below others _ (by rw [Nat.mul_add]; omega)
    | succ k =>
      obtain ⟨before, same⟩ := ih others (write pkt (filesAt + size * i) value) (i + 1) k (by simpa using inside)
      refine ⟨before, fun j low high => ?_⟩
      rw [show i + (k + 1) = i + 1 + k by omega] at low high ⊢
      exact same j low high

end Entries

def SameEntry (pkt pkt' : Block) (start size : Nat) : Prop := ∀ j, start ≤ j → j < start + size → pkt j = pkt' j

theorem SameEntry.load {pkt pkt' : Block} {start size : Nat} (same : SameEntry pkt pkt' start size) (off len : Nat)
    (within : off + len ≤ size) : load pkt (start + off) len = load pkt' (start + off) len :=
  load_congr fun j low high => same j (by omega) (by omega)

structure EntriesRead {α : Type} (size : Nat) (write : Block → Nat → α → Block) (id msgType : UInt32)
    (values : List α) (pkt : Block) : Prop where
  header : loadHeader pkt = entriesHeader size id msgType values.length
  fileNum : load32 pkt fileNumAt = UInt32.ofNat values.length
  entry : ∀ k (inside : k < values.length), ∃ before,
    SameEntry pkt (write before (filesAt + size * k) values[k]) (filesAt + size * k) size

theorem loadHeader_congr {pkt pkt' : Block}
    (same : ∀ j < headerLen, pkt j = pkt' j) : loadHeader pkt = loadHeader pkt' := by
  have part : ∀ start, start + 4 ≤ headerLen → load pkt start 4 = load pkt' start 4 := fun start inside =>
    load_congr fun j _ high => same j (by omega)
  simp [loadHeader, load32, part 0 (by decide), part 4 (by decide), part 8 (by decide)]

theorem storeCount_read (unwritten : Block) (hdr : Header) (fileNum : UInt32) {pkt : Block}
    (same : ∀ j < filesAt, pkt j = storeCount unwritten hdr fileNum j) :
    loadHeader pkt = hdr ∧ load32 pkt fileNumAt = fileNum := by
  constructor
  · refine Eq.trans (loadHeader_congr fun j below => ?_) (loadHeader_storeHeader unwritten hdr)
    rw [same j (by simp only [filesAt, headerLen] at below ⊢; omega)]
    exact store_outside _ (.inl below)
  · apply load32_of
    have stored := load_store (storeHeader unwritten hdr) fileNumAt (net32 fileNum)
    refine Eq.trans (load_congr fun j _ high => ?_) stored
    exact same j (by simpa using high)

theorem entriesPacket_front {α : Type} {size : Nat} {write : Block → Nat → α → Block} {values : List α}
    (confined : ∀ value ∈ values, Confined size write value) (unwritten : Block) (id msgType : UInt32) {pkt : Block}
    (same : ∀ j < filesAt, pkt j = entriesPacket size write unwritten id msgType values j) :
    loadHeader pkt = entriesHeader size id msgType values.length ∧ load32 pkt fileNumAt = UInt32.ofNat values.length :=
  storeCount_read unwritten _ _ fun j below =>
    (same j below).trans (storeEntries_below confined _ (by simpa using below))

theorem entriesPacket_read {α : Type} {size : Nat} {write : Block → Nat → α → Block} {values : List α}
    (confined : ∀ value ∈ values, Confined size write value) (unwritten : Block) (id msgType : UInt32) {pkt : Block}
    (same : ∀ j < headerLen + 4 + values.length * size,
      pkt j = entriesPacket size write unwritten id msgType values j) :
    EntriesRead size write id msgType values pkt := by
  obtain ⟨header, fileNum⟩ := entriesPacket_front confined unwritten id msgType fun j below =>
    same j (by simp only [filesAt, headerLen] at below ⊢; omega)
  refine ⟨header, fileNum, fun k inside => ?_⟩
  obtain ⟨before, entry⟩ := storeEntries_at confined (storeCount unwritten
    (entriesHeader size id msgType values.length) (UInt32.ofNat values.length)) 0 k inside
  rw [Nat.zero_add] at entry
  refine ⟨before, fun j low high => ?_⟩
  have room : size * k + size ≤ values.length * size := by
    rw [← Nat.mul_succ, Nat.mul_comm values.length]
    exact Nat.mul_le_mul_left size inside
  rw [same j (by simp only [filesAt, headerLen] at high ⊢; omega)]
  exact entry j low high

structure FileInformation.Fits (file : FileInformation) : Prop where
  short : file.fileName.length < fileNameLen
  text : ∀ c ∈ file.fileName, c ≠ 0

structure FileInfoStore.Fits (info : FileInfoStore) : Prop where
  short : info.fileName.length < fileNameLen
  text : ∀ c ∈ info.fileName, c ≠ 0
  ipShort : info.ipAddr.length < 20
  ipText : ∀ c ∈ info.ipAddr, c ≠ 0

theorem storeFileInformation_confined {file : FileInformation} (fits : file.Fits) :
    Confined fileInformationSize storeFileInformation file := by
  intro pkt start j outside
  have short := fits.short
  simp only [fileNameLen, fileInformationSize] at short outside
  simp only [storeFileInformation, storeString]
  rw [store_outside _ (by simp; omega), store_outside _ (by simp; omega)]

theorem storeFileInfo_confined {info : FileInfoStore} (fits : info.Fits) :
    Confined fileInfoStoreSize storeFileInfo info := by
  intro pkt start j outside
  have short := fits.short
  have ipShort := fits.ipShort
  simp only [fileNameLen, fileInfoStoreSize] at short outside
  simp only [storeFileInfo, storeString]
  rw [store_outside _ (by simp; omega), store_outside _ (by simp; omega), store_outside _ (by simp; omega),
    store_outside _ (by simp; omega)]

theorem fileInformation_read {pkt before : Block} {start : Nat} {file : FileInformation} (fits : file.Fits)
    (same : SameEntry pkt (storeFileInformation before start file) start fileInformationSize) :
    loadString pkt start fileNameLen = some file.fileName ∧ load32 pkt (start + 96) = file.fileSize := by
  have short := fits.short
  simp only [fileNameLen, fileInformationSize] at short same
  have size : load pkt (start + 96) 4 = net32 file.fileSize := by
    rw [same.load _ _ (by omega)]
    exact load_store _ _ _
  have name : load pkt start (file.fileName.length + 1) = file.fileName ++ [0] := by
    have whole := same.load 0 (file.fileName.length + 1) (by omega)
    rw [Nat.add_zero] at whole
    rw [whole, storeFileInformation, load_store_apart _ (by omega)]
    exact load_storeString before start file.fileName
  exact ⟨loadString_of fits.text short name, load32_of size⟩

theorem fileInfo_read {pkt before : Block} {start : Nat} {info : FileInfoStore} (fits : info.Fits)
    (same : SameEntry pkt (storeFileInfo before start info) start fileInfoStoreSize) :
    loadString pkt start fileNameLen = some info.fileName ∧ load32 pkt (start + 96) = info.fileSize ∧
      loadString pkt (start + 100) 20 = some info.ipAddr ∧ load32 pkt (start + 120) = info.portNum := by
  have short := fits.short
  have ipShort := fits.ipShort
  simp only [fileNameLen, fileInfoStoreSize] at short same
  have port : load pkt (start + 120) 4 = net32 info.portNum := by
    rw [same.load _ _ (by omega)]
    exact load_store _ _ _
  have ip : load pkt (start + 100) (info.ipAddr.length + 1) = info.ipAddr ++ [0] := by
    rw [same.load _ _ (by omega), storeFileInfo, load_store_apart _ (by omega)]
    exact load_storeString _ (start + 100) info.ipAddr
  have size : load pkt (start + 96) 4 = net32 info.fileSize := by
    rw [same.load _ _ (by omega), storeFileInfo, load_store_apart _ (by omega), storeString,
      load_store_apart _ (by omega)]
    exact load_store _ _ _
  have name : load pkt start (info.fileName.length + 1) = info.fileName ++ [0] := by
    have whole := same.load 0 (info.fileName.length + 1) (by omega)
    rw [Nat.add_zero] at whole
    rw [whole, storeFileInfo, load_store_apart _ (by omega), storeString, load_store_apart _ (by omega),
      load_store_apart _ (by omega)]
    exact load_storeString before start info.fileName
  exact ⟨loadString_of fits.text short name, load32_of size, loadString_of fits.ipText ipShort ip, load32_of port⟩

end NetProg.P4
