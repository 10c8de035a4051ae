import Mathlib.Data.List.Forall2
import NetProg.P4.Registration

set_option autoImplicit false

namespace NetProg.P4

open Memory

def messageLen (recvBuff : Block) : Option Nat :=
  -- How long a message with this type and this number of files is.
  let msgType := (loadHeader recvBuff).msgType
  let fileNum := (load32 recvBuff fileNumAt).toNat
  if msgType = helloFromChild ∨ msgType = helloSuperToSuper then some 16
  else if msgType = fileInfo then some (filesAt + fileInformationSize * fileNum)
  else if msgType = searchQuery then some 108
  else if msgType = fileInfoShare then some (filesAt + fileInfoStoreSize * fileNum)
  else none

structure ProtocolMessage (message : List UInt8) : Prop where
  fits : message.length ≤ recvBuffSize
  totalLen : (loadHeader (receiveBuffer message)).totalLen.toNat = message.length
  form : messageLen (receiveBuffer message) = some message.length

instance (message : List UInt8) : Decidable (ProtocolMessage message) :=
  decidable_of_iff (message.length ≤ recvBuffSize ∧
      (loadHeader (receiveBuffer message)).totalLen.toNat = message.length ∧
      messageLen (receiveBuffer message) = some message.length)
    ⟨fun ⟨fits, totalLen, form⟩ => ⟨fits, totalLen, form⟩, fun protocol => ⟨protocol.fits, protocol.totalLen, protocol.form⟩⟩

-- The two types whose length is compared with what has been read.
def ListsFiles (recvBuff : Block) : Prop :=
  (loadHeader recvBuff).msgType = fileInfo ∨ (loadHeader recvBuff).msgType = fileInfoShare

-- The bytes of the receive buffer that `handleClientRequest` takes for a message; `none` when it takes none.
def actedOn (received : List UInt8) : Option (List UInt8) :=
  let recvBuff := receiveBuffer received
  let hdr := loadHeader recvBuff
  if hdr.msgType = helloFromChild ∨ hdr.msgType = helloSuperToSuper then some (load recvBuff 0 16)
  else if hdr.msgType = fileInfo ∨ hdr.msgType = fileInfoShare then
    if hdr.totalLen.toNat > received.length then none else some (load recvBuff 0 hdr.totalLen.toNat)
  else if hdr.msgType = searchQuery then some (load recvBuff 0 hdr.totalLen.toNat)
  else none

def handleAll (clientAddr : InAddr) : SuperNode → List (List UInt8 × Unwritten) → Run SuperNode
  | node, [] => .ok node
  | node, (received, unwritten) :: rest => do
    let h ← handleClientRequest node clientAddr received unwritten
    handleAll clientAddr h.node rest

def HandlesMessages (node : SuperNode) (clientAddr : InAddr) (reads messages : List (List UInt8)) : Prop :=
  reads.filterMap actedOn = messages ∧
    ∀ calls calls' : List (List UInt8 × Unwritten), calls.map Prod.fst = reads → calls'.map Prod.fst = messages →
      handleAll clientAddr node calls = handleAll clientAddr node calls'

def HasData (read : List UInt8) : Bool := read.any (· ≠ 0)

structure Fits (read message : List UInt8) : Prop where
  -- The read is the message up to zeros at the end.
  same : receiveBuffer read = receiveBuffer message
  whole : ListsFiles (receiveBuffer message) → message.length ≤ read.length

-- The reads that hold more than zeros are the messages, up to zeros at the end.
def OneByOne (reads messages : List (List UInt8)) : Prop := List.Forall₂ Fits (reads.filter HasData) messages

theorem receiveBuffer_eq (received : List UInt8) : receiveBuffer received = ofBytes received :=
  (ofBytes_eq received).symm

theorem receiveBuffer_zeros (received zeros : List UInt8) (nothing : ∀ b ∈ zeros, b = 0) :
    receiveBuffer (received ++ zeros) = receiveBuffer received := by
  rw [receiveBuffer_eq, receiveBuffer_eq]
  funext i
  simp only [ofBytes, List.getD_eq_getElem?_getD]
  by_cases inside : i < received.length
  · rw [List.getElem?_append_left inside]
  · have ended : received[i]? = none := List.getElem?_eq_none (by omega)
    rw [List.getElem?_append_right (by omega), ended]
    cases found : zeros[i - received.length]? with
    | none => rfl
    | some b => exact nothing b (List.mem_of_getElem? found)

theorem load_receiveBuffer (received : List UInt8) (n : Nat) :
    load (receiveBuffer received) 0 n = received.take n ++ List.replicate (n - received.length) 0 := by
  rw [receiveBuffer_eq]
  apply List.ext_getElem
  · simp
    omega
  · intro i bound _
    simp only [length_load] at bound
    by_cases inside : i < received.length
    · rw [List.getElem_append_left (by simp; omega)]
      simp [load, ofBytes, inside]
    · rw [List.getElem_append_right (by simp; omega)]
      simp [load, ofBytes, inside]

theorem load_message (message : List UInt8) : load (receiveBuffer message) 0 message.length = message := by
  simp [load_receiveBuffer]

def dataBytes (bytes : List UInt8) : Nat := bytes.countP (· ≠ 0)

theorem dataBytes_zero {bytes : List UInt8} (nothing : dataBytes bytes = 0) : ∀ b ∈ bytes, b = 0 := by
  simpa [dataBytes, List.countP_eq_zero] using nothing

theorem hasData_iff (bytes : List UInt8) : HasData bytes = false ↔ dataBytes bytes = 0 := by
  simp [HasData, dataBytes, List.countP_eq_zero]

theorem taken_dataBytes (received : List UInt8) (n : Nat) :
    dataBytes (load (receiveBuffer received) 0 n) ≤ dataBytes received ∧
      (dataBytes received ≤ dataBytes (load (receiveBuffer received) 0 n) →
        receiveBuffer received = receiveBuffer (load (receiveBuffer received) 0 n)) := by
  have split : dataBytes received = dataBytes (received.take n) + dataBytes (received.drop n) := by
    rw [dataBytes, dataBytes, dataBytes, ← List.countP_append, List.take_append_drop]
  have size : dataBytes (load (receiveBuffer received) 0 n) = dataBytes (received.take n) := by
    rw [load_receiveBuffer, dataBytes, List.countP_append]
    simp [dataBytes, List.countP_replicate]
  refine ⟨by omega, fun all => ?_⟩
  have rest := dataBytes_zero (show dataBytes (received.drop n) = 0 by omega)
  rw [load_receiveBuffer, receiveBuffer_zeros _ _ (by simp)]
  conv_lhs => rw [← List.take_append_drop n received]
  exact receiveBuffer_zeros _ _ rest

section Read

variable {node : SuperNode} {clientAddr : InAddr} {read message : List UInt8}

theorem actedOn_part (acted : actedOn read = some message) :
    ∃ n, message = load (receiveBuffer read) 0 n ∧ (ListsFiles (receiveBuffer read) → n ≤ read.length) := by
  simp only [actedOn] at acted
  split_ifs at acted with hello lists short query
  · obtain rfl := Option.some.inj acted
    refine ⟨16, rfl, fun lists => ?_⟩
    rcases hello with type | type <;> rcases lists with type' | type' <;> exact absurd (type.symm.trans type') (by decide)
  · obtain rfl := Option.some.inj acted
    exact ⟨_, rfl, fun _ => Nat.not_lt.mp short⟩
  · obtain rfl := Option.some.inj acted
    exact ⟨_, rfl, fun lists' => absurd lists' lists⟩

theorem Fits.acted (fits : Fits read message) (protocol : ProtocolMessage message) : actedOn read = some message := by
  obtain ⟨same, whole⟩ := fits
  have total := protocol.totalLen
  have form := protocol.form
  have all := load_message message
  simp only [actedOn, same, messageLen] at form ⊢
  split_ifs at form with hello info query share
  · rw [if_pos hello, Option.some.inj form, all]
  · rw [if_neg hello, if_pos (.inl info), total, if_neg (Nat.not_lt.mpr (whole (.inl info))), all]
  · rw [if_neg hello, if_neg, if_pos query, total, all]
    rintro (info' | share)
    · exact info info'
    · exact absurd (query.symm.trans share) (by decide)
  · rw [if_neg hello, if_pos (.inr share), total, if_neg (Nat.not_lt.mpr (whole (.inr share))), all]

theorem actedOn_zeros (nothing : HasData read = false) : actedOn read = none := by
  have zeros := dataBytes_zero ((hasData_iff read).mp nothing)
  have empty : receiveBuffer read = receiveBuffer [] := receiveBuffer_zeros [] read zeros
  simp only [actedOn, empty]
  rfl

theorem ignored_node (unwritten : Unwritten) (ignored : actedOn read = none) :
    ∃ h, handleClientRequest node clientAddr read unwritten = .ok h ∧ h.node = node := by
  simp only [actedOn] at ignored
  split_ifs at ignored with hello lists short query
  · rcases lists with type | type
    · rw [handleClientRequest_fileInfo type, handleFileInfo, if_pos short]
      exact ⟨_, rfl, rfl⟩
    · rw [handleClientRequest_share type, handleFileInfoShare, if_pos short]
      exact ⟨_, rfl, rfl⟩
  · rw [not_or] at hello lists
    rw [handleClientRequest, if_neg hello.1, if_neg hello.2, if_neg lists.1, if_neg query, if_neg lists.2]
    exact ⟨_, rfl, rfl⟩

end Read

section Node

variable {recvBuff : Block} {node : SuperNode} {clientAddr : InAddr}

theorem copyFiles_table {read read' : Nat → Run FileInfoStore} {n i : Nat}
    (same : ∀ k, i ≤ k → k < i + n → read k = read' k) (put : Outgoing → Nat → FileInfoStore → Outgoing)
    (table : FileInformationTable) (out out' : Outgoing) :
    (copyFiles read put n i table out).map Prod.fst = (copyFiles read' put n i table out').map Prod.fst := by
  induction n generalizing i table out out' with
  | zero => rfl
  | succ n ih =>
    have further := ih (i := i + 1) fun k low high => same k (by omega) (by omega)
    simp only [copyFiles, bind, Except.bind, same i le_rfl (by omega)]
    by_cases inside : i < maxFiles
    · simp only [if_pos inside]
      cases read' i with
      | error => rfl
      | ok info =>
        simp only []
        cases insertFileInfo info table with
        | error => rfl
        | ok inserted => exact further _ _ _
    · simp only [if_neg inside]

theorem field_congr {pkt pkt' : Block} {start size : Nat}
    (same : ∀ j, start ≤ j → j < start + size → pkt j = pkt' j) : field pkt start size = field pkt' start size := by
  rw [field, field, loadString, loadString, load_congr fun j low high => same j low high]

theorem load32_congr {pkt pkt' : Block} {start : Nat} (same : ∀ j, start ≤ j → j < start + 4 → pkt j = pkt' j) :
    load32 pkt start = load32 pkt' start := by
  rw [load32, load32, load_congr fun j low high => same j low high]

theorem readFileInformation_congr {pkt pkt' : Block} {k : Nat} (childPort : UInt32)
    (same : ∀ j, filesAt + fileInformationSize * k ≤ j → j < filesAt + fileInformationSize * k + fileInformationSize →
      pkt j = pkt' j) :
    readFileInformation pkt clientAddr childPort k = readFileInformation pkt' clientAddr childPort k := by
  simp only [fileInformationSize] at same
  simp only [readFileInformation, fileInformationSize, fileNameLen]
  rw [field_congr fun j low high => same j (by omega) (by omega),
    load32_congr fun j low high => same j (by omega) (by omega)]

theorem readFileInfo_congr {pkt pkt' : Block} {k : Nat}
    (same : ∀ j, filesAt + fileInfoStoreSize * k ≤ j → j < filesAt + fileInfoStoreSize * k + fileInfoStoreSize →
      pkt j = pkt' j) : readFileInfo pkt k = readFileInfo pkt' k := by
  simp only [fileInfoStoreSize] at same
  simp only [readFileInfo, fileInfoStoreSize, fileNameLen]
  rw [field_congr fun j low high => same j (by omega) (by omega),
    load32_congr fun j low high => same j (by omega) (by omega)]
  have address : field pkt (filesAt + 124 * k + 100) 20 = field pkt' (filesAt + 124 * k + 100) 20 :=
    field_congr fun j low high => same j (by omega) (by omega)
  have port : load32 pkt (filesAt + 124 * k + 120) = load32 pkt' (filesAt + 124 * k + 120) :=
    load32_congr fun j low high => same j (by omega) (by omega)
  rw [address, port]

theorem copyPacket_same {total size : Nat} (fits : total ≤ recvBuffSize) (room : total ≤ size)
    (unwritten recvBuff : Block) :
    ∃ pkt, copyPacket unwritten recvBuff total size = .ok pkt ∧ ∀ j < total, pkt j = recvBuff j := by
  refine ⟨_, if_pos ⟨fits, room⟩, fun j inside => ?_⟩
  exact store_load _ _ (Nat.zero_le j) (by omega)

section Total

variable {total : Nat} (fits : total ≤ recvBuffSize) (totalLen : (loadHeader recvBuff).totalLen.toNat = total)
include fits totalLen

theorem handleFileInfo_node {bytesRead : Nat} (whole : total ≤ bytesRead)
    (form : total = filesAt + fileInformationSize * (load32 recvBuff fileNumAt).toNat) (unwritten : Unwritten) :
    (handleFileInfo node clientAddr recvBuff bytesRead unwritten).map Handled.node =
      let childPort := findChildPort node.childPorts (loadHeader recvBuff).id
      if childPort = 0 then .ok node
      else ((copyFiles (readFileInformation recvBuff clientAddr childPort) putFileInformation
          (load32 recvBuff fileNumAt).toNat 0 node.fileInfoTable { share := recvBuff, reply := recvBuff }).map
        Prod.fst).map fun fileInfoTable => { node with fileInfoTable } := by
  simp only [handleFileInfo, totalLen, if_neg (Nat.not_lt.mpr whole)]
  by_cases unknown : findChildPort node.childPorts (loadHeader recvBuff).id = 0
  · simp only [if_pos unknown]
    rfl
  · obtain ⟨pkt, copied, same⟩ := copyPacket_same fits (show total ≤ 10016 from fits.trans (by decide))
      unwritten.fileInfoPkt recvBuff
    simp only [filesAt, fileInformationSize] at form
    have count : load32 pkt fileNumAt = load32 recvBuff fileNumAt :=
      load32_congr fun j low high => same j (by simp only [fileNumAt] at high; omega)
    have entries (k : Nat) (low : 0 ≤ k) (high : k < 0 + (load32 recvBuff fileNumAt).toNat) :
        readFileInformation pkt clientAddr (findChildPort node.childPorts (loadHeader recvBuff).id) k =
          readFileInformation recvBuff clientAddr (findChildPort node.childPorts (loadHeader recvBuff).id) k :=
      readFileInformation_congr _ fun j _ inside =>
        same j (by simp only [filesAt, fileInformationSize] at inside; omega)
    simp only [if_neg unknown, copied, count, bind, Except.bind]
    generalize Outgoing.mk _ _ = out
    have table := copyFiles_table entries putFileInformation node.fileInfoTable out { share := recvBuff, reply := recvBuff }
    rw [← table]
    split <;> simp [Except.map, *]

theorem handleFileInfoShare_node {bytesRead : Nat} (whole : total ≤ bytesRead)
    (form : total = filesAt + fileInfoStoreSize * (load32 recvBuff fileNumAt).toNat) (unwritten : Unwritten) :
    (handleFileInfoShare node recvBuff bytesRead unwritten).map Handled.node =
      ((copyFiles (readFileInfo recvBuff) putFileInfo (load32 recvBuff fileNumAt).toNat 0 node.fileInfoTable
        { share := recvBuff, reply := recvBuff }).map Prod.fst).map fun fileInfoTable => { node with fileInfoTable } := by
  obtain ⟨pkt, copied, same⟩ := copyPacket_same fits (show total ≤ 12416 from fits.trans (by decide))
    unwritten.fileInfoSharePkt recvBuff
  simp only [filesAt, fileInfoStoreSize] at form
  have count : load32 pkt fileNumAt = load32 recvBuff fileNumAt :=
    load32_congr fun j low high => same j (by simp only [fileNumAt] at high; omega)
  have entries (k : Nat) (low : 0 ≤ k) (high : k < 0 + (load32 recvBuff fileNumAt).toNat) :
      readFileInfo pkt k = readFileInfo recvBuff k :=
    readFileInfo_congr fun j _ inside => same j (by simp only [filesAt, fileInfoStoreSize] at inside; omega)
  simp only [handleFileInfoShare, totalLen, if_neg (Nat.not_lt.mpr whole), copied, count, bind, Except.bind]
  generalize Outgoing.mk _ _ = out
  have table := copyFiles_table entries putFileInfo node.fileInfoTable out { share := recvBuff, reply := recvBuff }
  rw [← table]
  split <;> simp [Except.map, Handled.reply, *]

theorem handleSearchQuery_node (form : total = 108) (unwritten : Unwritten) :
    (handleSearchQuery node recvBuff unwritten).map Handled.node =
      (field recvBuff 12 fileNameLen >>= fun fileName => searchFileInfo fileName node.fileInfoTable.fileInfoList).map
        fun _ => node := by
  obtain ⟨pkt, copied, same⟩ := copyPacket_same fits (show total ≤ 108 from form.le) unwritten.searchQueryPkt recvBuff
  have name : field pkt 12 fileNameLen = field recvBuff 12 fileNameLen :=
    field_congr fun j _ high => same j (by simp only [fileNameLen] at high; omega)
  simp only [handleSearchQuery, totalLen, copied, name, bind, Except.bind]
  cases field recvBuff 12 fileNameLen with
  | error => rfl
  | ok fileName =>
    simp only []
    cases searchFileInfo fileName node.fileInfoTable.fileInfoList with
    | error => rfl
    | ok found => cases found <;> rfl

end Total

theorem handleClientRequest_fits {read message : List UInt8} (fits : Fits read message)
    (protocol : ProtocolMessage message) (unwritten unwritten' : Unwritten) :
    (handleClientRequest node clientAddr read unwritten).map Handled.node =
      (handleClientRequest node clientAddr message unwritten').map Handled.node := by
  obtain ⟨same, whole⟩ := fits
  have short := protocol.fits
  have total := protocol.totalLen
  have form := protocol.form
  simp only [handleClientRequest, same]
  split_ifs with hello superHello info query share
  · rfl
  · rfl
  · simp only [messageLen, if_neg (not_or.mpr ⟨hello, superHello⟩), if_pos info, Option.some.injEq] at form
    rw [handleFileInfo_node short total (whole (.inl info)) form.symm,
      handleFileInfo_node short total le_rfl form.symm]
  · simp only [messageLen, if_neg (not_or.mpr ⟨hello, superHello⟩), if_neg info, if_pos query,
      Option.some.injEq] at form
    rw [handleSearchQuery_node short total form.symm, handleSearchQuery_node short total form.symm]
  · simp only [messageLen, if_neg (not_or.mpr ⟨hello, superHello⟩), if_neg info, if_neg query, if_pos share,
      Option.some.injEq] at form
    rw [handleFileInfoShare_node short total (whole (.inr share)) form.symm,
      handleFileInfoShare_node short total le_rfl form.symm]
  · rfl

end Node

section Reads

variable {node : SuperNode} {clientAddr : InAddr}

theorem handleAll_cons (node : SuperNode) (received : List UInt8) (unwritten : Unwritten)
    (rest : List (List UInt8 × Unwritten)) :
    handleAll clientAddr node ((received, unwritten) :: rest) =
      (handleClientRequest node clientAddr received unwritten).map Handled.node >>= fun after =>
        handleAll clientAddr after rest := by
  rw [handleAll]
  cases handleClientRequest node clientAddr received unwritten <;> rfl

theorem handleAll_oneByOne {calls calls' : List (List UInt8 × Unwritten)}
    (protocol : ∀ message ∈ calls'.map Prod.fst, ProtocolMessage message)
    (fits : OneByOne (calls.map Prod.fst) (calls'.map Prod.fst)) :
    handleAll clientAddr node calls = handleAll clientAddr node calls' := by
  induction calls generalizing node calls' with
  | nil =>
    cases calls' with
    | nil => rfl
    | cons => cases fits
  | cons call rest ih =>
    obtain ⟨received, unwritten⟩ := call
    cases data : HasData received with
    | false =>
      obtain ⟨h, ran, same⟩ : ∃ h, handleClientRequest node clientAddr received unwritten = .ok h ∧ h.node = node :=
        ignored_node unwritten (actedOn_zeros data)
      have later : OneByOne (rest.map Prod.fst) (calls'.map Prod.fst) := by
        simpa [OneByOne, data] using fits
      rw [handleAll_cons, ran]
      simp only [Except.map, same]
      exact ih protocol later
    | true =>
      cases calls' with
      | nil => simp [OneByOne, data] at fits
      | cons call' rest' =>
        obtain ⟨message, unwritten'⟩ := call'
        simp only [OneByOne, List.map_cons, List.filter_cons, data, if_true, List.forall₂_cons] at fits
        have first : (handleClientRequest node clientAddr received unwritten).map Handled.node =
            (handleClientRequest node clientAddr message unwritten').map Handled.node :=
          handleClientRequest_fits fits.1 (protocol message (by simp)) unwritten unwritten'
        rw [handleAll_cons, handleAll_cons, first]
        congr 1
        funext after
        exact ih (fun m member => protocol m (by simp at member ⊢; tauto)) fits.2

theorem acted_oneByOne {reads messages : List (List UInt8)} (protocol : ∀ message ∈ messages, ProtocolMessage message)
    (fits : OneByOne reads messages) : reads.filterMap actedOn = messages := by
  induction reads generalizing messages with
  | nil => cases fits; rfl
  | cons read rest ih =>
    cases data : HasData read with
    | false =>
      rw [List.filterMap_cons_none (actedOn_zeros data)]
      exact ih protocol (by simpa [OneByOne, data] using fits)
    | true =>
      cases messages with
      | nil => simp [OneByOne, data] at fits
      | cons message later =>
        simp only [OneByOne, List.filter_cons, data, if_true, List.forall₂_cons] at fits
        rw [List.filterMap_cons_some (fits.1.acted (protocol message (by simp)))]
        rw [ih (fun m member => protocol m (by simp [member])) fits.2]

theorem dataBytes_append (a b : List UInt8) : dataBytes (a ++ b) = dataBytes a + dataBytes b := by
  simp [dataBytes]

theorem acted_dataBytes {read message : List UInt8} (acted : actedOn read = some message) :
    dataBytes message ≤ dataBytes read ∧ (dataBytes read ≤ dataBytes message → Fits read message) := by
  obtain ⟨n, rfl, listed⟩ := actedOn_part acted
  obtain ⟨part, same⟩ := taken_dataBytes read n
  refine ⟨part, fun all => ⟨same all, fun lists => ?_⟩⟩
  rw [← same all] at lists
  simpa using listed lists

theorem filterMap_dataBytes (reads : List (List UInt8)) :
    dataBytes (reads.filterMap actedOn).flatten ≤ dataBytes reads.flatten := by
  induction reads with
  | nil => rfl
  | cons read rest ih =>
    cases acted : actedOn read with
    | none =>
      rw [List.filterMap_cons_none acted, List.flatten_cons, dataBytes_append]
      omega
    | some message =>
      have part := (acted_dataBytes acted).1
      rw [List.filterMap_cons_some acted, List.flatten_cons, List.flatten_cons, dataBytes_append, dataBytes_append]
      omega

-- Every byte that is not zero is in one message, so that nothing can be left of a read.
theorem oneByOne_acted {reads : List (List UInt8)}
    (all : dataBytes reads.flatten ≤ dataBytes (reads.filterMap actedOn).flatten) :
    OneByOne reads (reads.filterMap actedOn) := by
  induction reads with
  | nil => exact List.Forall₂.nil
  | cons read rest ih =>
    have later := filterMap_dataBytes rest
    cases acted : actedOn read with
    | none =>
      rw [List.filterMap_cons_none acted, List.flatten_cons, dataBytes_append] at all
      have zeros : HasData read = false := (hasData_iff read).mpr (by omega)
      rw [List.filterMap_cons_none acted]
      simpa [OneByOne, zeros] using ih (by omega)
    | some message =>
      obtain ⟨part, fits⟩ := acted_dataBytes acted
      rw [List.filterMap_cons_some acted, List.flatten_cons, List.flatten_cons, dataBytes_append,
        dataBytes_append] at all
      have data : HasData read = true := by
        by_contra zeros
        rw [actedOn_zeros (by simpa using zeros)] at acted
        cases acted
      rw [List.filterMap_cons_some acted]
      simp only [OneByOne, List.filter_cons, data, if_true, List.forall₂_cons]
      exact ⟨fits (by omega), ih (by omega)⟩

end Reads

theorem messages_handled_iff (node : SuperNode) (clientAddr : InAddr) {reads messages : List (List UInt8)}
    (protocol : ∀ message ∈ messages, ProtocolMessage message) (stream : reads.flatten = messages.flatten) :
    HandlesMessages node clientAddr reads messages ↔ OneByOne reads messages := by
  constructor
  · intro ⟨acted, _⟩
    rw [← acted] at stream ⊢
    exact oneByOne_acted (by rw [stream])
  · intro fits
    refine ⟨acted_oneByOne protocol fits, fun calls calls' reads' messages' => ?_⟩
    subst reads' messages'
    exact handleAll_oneByOne protocol fits

def helloThenFiles : List (List UInt8) :=
  [helloFromChildPacket 7 5000, fileInfoPacket (fun _ => 0) 7 [{ fileName := [97], fileSize := 1 }]]

theorem whole_messages_handled : HandlesMessages (startUp 1 fun _ => 0) ⟨10, 0, 0, 1⟩ helloThenFiles helloThenFiles := by
  have whole : OneByOne helloThenFiles helloThenFiles :=
    .cons ⟨rfl, fun _ => le_rfl⟩ (.cons ⟨rfl, fun _ => le_rfl⟩ .nil)
  exact (messages_handled_iff (startUp 1 fun _ => 0) ⟨10, 0, 0, 1⟩ (by decide) rfl).mpr whole

-- One `read` returns the greeting of a child and its list, and the list is not stored.
theorem joined_messages_lost :
    (¬ ∀ (node : SuperNode) (clientAddr : InAddr) (reads messages : List (List UInt8)),
      (∀ message ∈ messages, ProtocolMessage message) → reads.flatten = messages.flatten →
      (∀ read ∈ reads, read ≠ [] ∧ read.length ≤ recvBuffSize) → HandlesMessages node clientAddr reads messages) ∧
    ((handleAll ⟨10, 0, 0, 1⟩ (startUp 1 fun _ => 0) (helloThenFiles.map fun message => (message, zeroed))).toOption.map
      fun node => node.fileInfoTable.len) = some 1 ∧
    ((handleAll ⟨10, 0, 0, 1⟩ (startUp 1 fun _ => 0) [(helloThenFiles.flatten, zeroed)]).toOption.map
      fun node => node.fileInfoTable.len) = some 0 := by
  refine ⟨fun claimed => ?_, by decide +kernel, by decide +kernel⟩
  have handled := claimed (startUp 1 fun _ => 0) ⟨10, 0, 0, 1⟩ [helloThenFiles.flatten] helloThenFiles (by decide)
    (by simp) (by decide +kernel)
  exact absurd (congrArg List.length handled.1) (by decide +kernel)

end NetProg.P4
