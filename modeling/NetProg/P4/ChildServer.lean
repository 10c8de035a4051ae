import NetProg.P4.Download
import NetProg.P4.SuperNode

set_option autoImplicit false

namespace NetProg.P4

open Memory

def fileReq : UInt32 := 0x40

abbrev fileReqLen : Nat := 108

def fileReqPacket (unwritten : Block) (id : UInt32) (fileName : List UInt8) : List UInt8 :=
  load (storeString (storeHeader unwritten { totalLen := 108, id, msgType := fileReq }) 12 fileName) 0 fileReqLen

-- `./data/`
def dataDir : List UInt8 := [46, 47, 100, 97, 116, 97, 47]

structure DataFiles where
  -- What `stat`, `open` and the `read` calls make of a path.
  stat : List UInt8 → Option Nat
  opens : List UInt8 → Bool
  reads : List UInt8 → List FileRead

structure ChildNode where
  id : UInt32
  files : DataFiles
  -- what the stack holds where `fileReqPkt` is, and the block that `malloc` returns
  fileReqPkt : Block
  fileResSuccessPkt : Block

-- The packets that are written for one `read` from a peer, and whether the call has returned.
def ChildNode.handleClientRequest (child : ChildNode) (received : Option (List UInt8)) :
    Run (List (List UInt8) × Bool) :=
  match received with
  | none => .ok ([], true)
  | some received =>
    let fileReqPkt := store child.fileReqPkt 0 (received.take fileReqLen)
    if (loadHeader fileReqPkt).msgType = fileReq then do
      -- `strcat` goes on behind the packet where the name has no end
      let fileName ← field fileReqPkt 12 fileNameLen
      let reqFileName := dataDir ++ fileName
      .ok (handleFileReq child.id child.fileResSuccessPkt (child.files.stat reqFileName) (child.files.opens reqFileName)
        (child.files.reads reqFileName))
    else .ok ([], true)

-- The file is there, and `read` returns it piece by piece.
structure ChildNode.Holds (child : ChildNode) (fileName content : List UInt8) : Prop where
  stat : child.files.stat (dataDir ++ fileName) = some content.length
  opens : child.files.opens (dataDir ++ fileName) = true
  reads : ∃ chunks : List (List UInt8), (∀ bytes ∈ chunks, Chunk bytes) ∧ chunks.flatten = content ∧
    child.files.reads (dataDir ++ fileName) = fileReads chunks

theorem fileReq_handled (child : ChildNode) {fileName : List UInt8} (short : fileName.length < fileNameLen)
    (text : ∀ c ∈ fileName, c ≠ 0) (unwritten : Block) (id : UInt32) :
    child.handleClientRequest (some (fileReqPacket unwritten id fileName)) =
      .ok (handleFileReq child.id child.fileResSuccessPkt (child.files.stat (dataDir ++ fileName))
        (child.files.opens (dataDir ++ fileName)) (child.files.reads (dataDir ++ fileName))) := by
  let header := storeHeader unwritten { totalLen := 108, id, msgType := fileReq }
  let pkt := store child.fileReqPkt 0 (fileReqPacket unwritten id fileName)
  have sent (j : Nat) (inside : j < fileReqLen) : pkt j = storeString header 12 fileName j :=
    store_load _ _ (Nat.zero_le j) (by omega)
  have type : (loadHeader pkt).msgType = fileReq := by
    have front : loadHeader pkt = { totalLen := 108, id, msgType := fileReq } := by
      refine Eq.trans (loadHeader_congr fun j below => ?_) (loadHeader_storeHeader unwritten _)
      simp only [headerLen] at below
      rw [sent j (by simp only [fileReqLen]; omega)]
      exact store_outside _ (.inl below)
    rw [front]
  have named : loadString pkt 12 fileNameLen = some fileName := by
    refine loadString_of text short ((load_congr fun j low high => ?_).trans (load_storeString header 12 fileName))
    simp only [fileNameLen] at short
    exact sent j (by simp only [fileReqLen]; omega)
  have length : (fileReqPacket unwritten id fileName).take fileReqLen = fileReqPacket unwritten id fileName :=
    List.take_of_length_le (by rw [fileReqPacket, length_load])
  have read : field pkt 12 fileNameLen = .ok fileName := by rw [field, named]
  simp only [ChildNode.handleClientRequest, length]
  rw [if_pos type, show field _ 12 fileNameLen = _ from read]
  rfl

theorem fileReq_served {child : ChildNode} {fileName content : List UInt8} (holds : child.Holds fileName content)
    (short : fileName.length < fileNameLen) (text : ∀ c ∈ fileName, c ≠ 0) (small : content.length < 2 ^ 31)
    (unwritten : Block) (id : UInt32) :
    ∃ chunks : List (List UInt8), (∀ bytes ∈ chunks, Chunk bytes) ∧ chunks.flatten = content ∧
      child.handleClientRequest (some (fileReqPacket unwritten id fileName)) =
        .ok (chunks.map (resSuccessPacket child.id), true) := by
  obtain ⟨chunks, cut, whole, reads⟩ := holds.reads
  refine ⟨chunks, cut, whole, ?_⟩
  have regular : 0 ≤ asInt content.length := by rw [asInt_small (by omega) (by omega)]; omega
  have served := handleFileReq_serves child.id child.fileResSuccessPkt cut regular
  rw [fileReq_handled child short text, holds.stat, holds.opens, reads, served]

end NetProg.P4
