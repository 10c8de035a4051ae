import NetProg.P2.Simulation

set_option autoImplicit false

namespace NetProg.P2

open Memory Upload Transition

def Effects.answers (effects : Effects) (command : UInt16) : Bool :=
  effects.replies.any fun reply => load16 (ofBytes reply) commandAt == command

def deliveredBy (bytes : List UInt8) (entry : Entry) : List UInt8 :=
  if Effects.answers entry.effects pktReceived then bytes ++ entry.packet.drop headerLength
  else if Effects.answers entry.effects fileStored then []
  else bytes

-- What has been delivered and acknowledged on a connection since the last FILE_STORED.
def delivered (log : List Entry) : List UInt8 := log.foldl deliveredBy []

theorem sendReply_answers (serverSendPkt : Block) (seqNum : Nat) (cmd command : UInt16)
    (written : Option (List UInt8 × List UInt8)) :
    Effects.answers (sendReply serverSendPkt seqNum cmd written) command = (cmd == command) := by
  simp [Effects.answers, sendReply_effects, message_command]

structure HoldsBytes (heap : Heap) (v : SlotVars) (bytes : List UInt8) : Prop where
  count : v.bytesRead.toNat = bytes.length
  block : v.buffer = 0 ∧ bytes = [] ∨
    ∃ b, heap.deref v.buffer = some b ∧ bytes.length ≤ b.size ∧ load b.bytes 0 bytes.length = bytes

section Handle

variable {heap : Heap} {v : SlotVars} {serverSendPkt serverRecvPkt : Block} {o : SelectOutcome} {h : SlotHandled}
  {sequence command : UInt16} {data bytes : List UInt8}

theorem HoldsBytes.congr {heap' : Heap} (holds : HoldsBytes heap v bytes)
    (same : heap'.deref v.buffer = heap.deref v.buffer) : HoldsBytes heap' v bytes :=
  ⟨holds.count, same ▸ holds.block⟩

theorem HoldsBytes.null (holds : HoldsBytes heap v bytes) (nothing : heap.deref v.buffer = none) : bytes = [] := by
  rcases holds.block with ⟨-, empty⟩ | ⟨b, allocated, -⟩
  · exact empty
  · cases nothing.symm.trans allocated

theorem HoldsBytes.held (holds : HoldsBytes heap v bytes) (b : Buffer) (here : heap.deref v.buffer = some b) :
    bytes.length ≤ b.size ∧ load b.bytes 0 bytes.length = bytes := by
  rcases holds.block with ⟨null, -⟩ | ⟨b, allocated, inside⟩
  · simp [Heap.deref, null] at here
  · exact Option.some.inj (allocated.symm.trans here) ▸ inside

theorem HoldsBytes.counted (holds : HoldsBytes heap v bytes) (nonempty : bytes ≠ []) : v.bytesRead ≠ 0 := by
  intro zero
  have count := holds.count
  rw [zero] at count
  exact nonempty (List.length_eq_zero_iff.mp count.symm)

theorem realloc_succeeds (old : Option Buffer) {size : Nat} (positive : size ≠ 0) (fresh : Block) :
    Memory.realloc old size (some fresh) ≠ none := by
  cases old <;> simp [Memory.realloc, positive]

theorem deliver_holds (holds : HoldsBytes heap v bytes) (carries : Carries serverRecvPkt sequence command data)
    (fits : data.length ≤ dataSize)
    (succeeds : v.bytesRead ≠ 0 → o.realloc ≠ none ∧ v.bytesRead + dataLen serverRecvPkt ≠ 0)
    (handled : deliver heap v serverSendPkt serverRecvPkt o = some h) :
    ∃ seqNum, h.effects = sendReply serverSendPkt seqNum pktReceived none ∧ HoldsBytes h.heap h.vars (bytes ++ data) ∨
      h.effects = sendReply serverSendPkt seqNum error none ∧ HoldsBytes h.heap h.vars bytes := by
  have len := carries.dataLen fits
  refine ⟨v.lastSeqNum.toNat + 1, ?_⟩
  cases ran : heap.realloc v.buffer (v.bytesRead + dataLen serverRecvPkt).toNat o.realloc with
  | none => simp only [deliver, ran, reduceCtorEq] at handled
  | some moved =>
    obtain ⟨heap', buffer⟩ := moved
    have grown := realloc_deref ran
    cases block : heap'.deref buffer with
    | none =>
      simp only [deliver, ran, block, Option.some.injEq] at handled
      subst handled
      rw [block] at grown
      have null : buffer = 0 := by
        cases realloc_cases ran with
        | refused => rfl
        | emptied => rfl
        | placed _ _ b succeeds => cases grown.trans succeeds
      -- `realloc` fails on an empty buffer only
      have nothing : bytes = [] := by
        by_contra nonempty
        obtain ⟨allocates, positive⟩ := succeeds (holds.counted nonempty)
        obtain ⟨fresh, found⟩ := Option.ne_none_iff_exists'.mp allocates
        rw [found, Option.map_some] at grown
        exact realloc_succeeds _ (fun zero => positive (UInt32.toNat_inj.mp zero)) _ grown.symm
      exact .inr ⟨rfl, holds.count, .inl ⟨null, nothing⟩⟩
    | some b =>
      rw [block] at grown
      simp only [deliver, ran, block] at handled
      split_ifs at handled with inside
      obtain rfl := Option.some.inj handled
      rw [holds.count, len] at inside
      obtain ⟨-, fits'⟩ := inside
      have valid : buffer ≠ 0 := by
        rintro rfl
        simp [Heap.deref] at block
      -- the block has room for all of it, so the new size has not wrapped
      obtain ⟨size, kept⟩ := realloc_keeps holds.null holds.held grown.symm
      have total : (v.bytesRead + dataLen serverRecvPkt).toNat = bytes.length + data.length := by
        have sum : (v.bytesRead + dataLen serverRecvPkt).toNat = _ :=
          unwrapped_add (by rw [holds.count, len, ← size]; exact fits')
        rwa [holds.count, len] at sum
      let filled := { b with
        bytes := store b.bytes v.bytesRead.toNat (load serverRecvPkt dataAt (dataLen serverRecvPkt).toNat) }
      refine .inl ⟨rfl, ?_, .inr ⟨filled, ?_, ?_, ?_⟩⟩
      · exact total.trans List.length_append.symm
      · exact (if_neg valid).trans (Function.update_self ..)
      · rw [List.length_append]
        exact fits'
      · simp only [filled, holds.count, len, carries.data]
        exact load_store_append (kept (by omega)) data

theorem deliver_freed (handled : deliver heap v serverSendPkt serverRecvPkt o = some h) : h.freed = false := by
  simp only [deliver] at handled
  grind

theorem storeFile_holds (holds : HoldsBytes heap v bytes)
    (handled : storeFile heap v serverSendPkt serverRecvPkt o = some h) :
    ∃ seqNum cmd written, h.effects = sendReply serverSendPkt seqNum cmd written ∧
      (cmd = storedError ∧ HoldsBytes h.heap h.vars bytes ∨
        cmd = fileStored ∧ (h.freed = false → HoldsBytes h.heap h.vars []) ∧ written.isSome ∧ o.writes.isSome) ∧
      ∀ name content, written = some (name, content) → content = bytes := by
  have taken (content : List UInt8)
      (found : bytesToWrite (heap.deref v.buffer) v.bytesRead.toNat = some (some content)) : content = bytes :=
    bytesToWrite_content holds.null holds.held (holds.count ▸ found)
  simp only [storeFile] at handled
  split at handled
  case isFalse => cases handled
  split at handled
  · cases handled
  next fileName _ =>
    split at handled
    case isFalse =>
      obtain rfl := Option.some.inj handled
      exact ⟨_, _, _, rfl, .inl ⟨rfl, holds.count, holds.block⟩, by simp⟩
    next opens =>
      split at handled
      · cases handled
      · obtain rfl := Option.some.inj handled
        exact ⟨_, _, _, rfl, .inl ⟨rfl, holds.count, holds.block⟩, by simp⟩
      next content found =>
        have own : ∀ name content', some (fileName, content) = some (name, content') → content' = bytes := by
          rintro name content' same
          obtain ⟨-, rfl⟩ := Prod.mk.inj (Option.some.inj same)
          exact taken _ found
        split at handled
        · obtain rfl := Option.some.inj handled
          exact ⟨_, _, _, rfl, .inl ⟨rfl, holds.count, holds.block⟩, own⟩
        next stored writes =>
          split at handled
          · cases handled
          next heap' released =>
            obtain rfl := Option.some.inj handled
            refine ⟨_, _, _, rfl, .inr ⟨rfl, fun kept => ?_, rfl, by simp [writes]⟩, own⟩
            -- only a null pointer is freed and stays valid
            have null : v.buffer = 0 := by simpa using kept
            have nothing : bytes = [] := holds.null (if_pos null)
            exact ⟨nothing ▸ holds.count, .inl ⟨null, rfl⟩⟩

theorem handle_holds (holds : HoldsBytes heap v bytes) (carries : Carries serverRecvPkt sequence command data)
    (fits : data.length ≤ dataSize)
    (succeeds : command = dataDelivery → v.bytesRead ≠ 0 →
      o.realloc ≠ none ∧ v.bytesRead + dataLen serverRecvPkt ≠ 0)
    (handled : handleClientRequest heap v serverSendPkt serverRecvPkt o = some h) {entry : Entry}
    (same : entry.effects = h.effects) (read : entry.packet.drop headerLength = data) :
    (h.freed = false → HoldsBytes h.heap h.vars (deliveredBy bytes entry)) ∧
      (∀ name content, h.effects.written = some (name, content) → content = bytes) ∧
      (Effects.answers h.effects fileStored = true → h.effects.written.isSome ∧ o.writes.isSome) := by
  have silent : ∀ name content, (none : Option (List UInt8 × List UInt8)) = some (name, content) → content = bytes := by
    intro name content written
    cases written
  simp only [handleClientRequest, carries.command] at handled
  rw [deliveredBy, same, read]
  by_cases hello : command = clientHello
  case pos =>
    rw [if_pos hello] at handled
    obtain rfl := Option.some.inj handled
    simp only [sendReply_answers]
    exact ⟨fun _ => ⟨holds.count, holds.block⟩, silent, fun other => absurd other (by decide)⟩
  by_cases delivery : command = dataDelivery
  case pos =>
    rw [if_neg hello, if_pos delivery] at handled
    obtain ⟨seqNum, ⟨effects, holds'⟩ | ⟨effects, holds'⟩⟩ := deliver_holds holds carries fits (succeeds delivery) handled
    all_goals
      rw [effects]
      simp only [sendReply_answers]
      exact ⟨fun _ => holds', silent, fun other => absurd other (by decide)⟩
  by_cases stores : command = dataStore
  case pos =>
    rw [if_neg hello, if_neg delivery, if_pos stores] at handled
    obtain ⟨seqNum, cmd, written, effects, ⟨rfl, holds'⟩ | ⟨rfl, kept, stored⟩, own⟩ := storeFile_holds holds handled
    all_goals
      rw [effects]
      simp only [sendReply_answers]
    · exact ⟨fun _ => holds', own, fun other => absurd other (by decide)⟩
    · exact ⟨kept, own, fun _ => stored⟩
  rw [if_neg hello, if_neg delivery, if_neg stores] at handled
  obtain rfl := Option.some.inj handled
  refine ⟨fun _ => holds, silent, fun answered => ?_⟩
  cases answered

theorem handle_unfreed
    (kept : load16 serverRecvPkt commandAt = dataStore → v.buffer ≠ 0 → ¬ (o.opens = true ∧ o.writes.isSome = true))
    (handled : handleClientRequest heap v serverSendPkt serverRecvPkt o = some h) : h.freed = false := by
  by_cases delivery : load16 serverRecvPkt commandAt = dataDelivery
  case pos =>
    rw [handleClientRequest, delivery, if_neg (by decide), if_pos rfl] at handled
    exact deliver_freed handled
  by_cases stores : load16 serverRecvPkt commandAt = dataStore
  case pos =>
    rw [handleClientRequest, stores, if_neg (by decide), if_neg (by decide), if_pos rfl] at handled
    by_contra freed
    have fails := kept stores
    simp only [storeFile] at handled
    grind
  exact (handle_idle delivery stores handled).2.2

end Handle

-- No `realloc` fails on a slot that holds bytes, and no block is freed with its file stored.
def KeepsPointer (s : SelectServer) (e : SelectEvent) (_ : SelectServer) : Prop :=
  match e with
  | .scan (.packet packet) _ _ o => match s.loop.scan with
    | some (some i, _) =>
      (load16 (ofBytes packet) commandAt = dataDelivery → (s.vars i).bytesRead ≠ 0 →
        o.realloc ≠ none ∧ (s.vars i).bytesRead + dataLen (ofBytes packet) ≠ 0) ∧
      (load16 (ofBytes packet) commandAt = dataStore → (s.vars i).buffer ≠ 0 →
        ¬ (o.opens = true ∧ o.writes.isSome = true))
    | _ => True
  | _ => True

instance (s : SelectServer) (e : SelectEvent) (s' : SelectServer) : Decidable (KeepsPointer s e s') :=
  match e with
  | .scan (.packet packet) _ _ o => match turn : s.loop.scan with
    | some (some i, _) => decidable_of_iff
        ((load16 (ofBytes packet) commandAt = dataDelivery → (s.vars i).bytesRead ≠ 0 →
            o.realloc ≠ none ∧ (s.vars i).bytesRead + dataLen (ofBytes packet) ≠ 0) ∧
          (load16 (ofBytes packet) commandAt = dataStore → (s.vars i).buffer ≠ 0 →
            ¬ (o.opens = true ∧ o.writes.isSome = true))) (by simp only [KeepsPointer, turn])
    | some (none, _) => .isTrue (by simp only [KeepsPointer, turn])
    | none => .isTrue (by simp only [KeepsPointer, turn])
  | .scan .failed _ _ _ | .scan .closed _ _ _ | .select _ | .accept _ => .isTrue trivial

-- No `realloc` fails on a slot that holds bytes, and no pointer is used that has been freed.
def KeepsBytes (s : SelectServer) (e : SelectEvent) (_ : SelectServer) : Prop :=
  match e with
  | .scan (.packet packet) _ _ o => match s.loop.scan with
    | some (some i, _) =>
      (load16 (ofBytes packet) commandAt = dataDelivery → (s.vars i).bytesRead ≠ 0 →
        o.realloc ≠ none ∧ (s.vars i).bytesRead + dataLen (ofBytes packet) ≠ 0) ∧
      (s.spent i = true →
        load16 (ofBytes packet) commandAt ≠ dataDelivery ∧ load16 (ofBytes packet) commandAt ≠ dataStore)
    | _ => True
  | _ => True

instance (s : SelectServer) (e : SelectEvent) (s' : SelectServer) : Decidable (KeepsBytes s e s') :=
  match e with
  | .scan (.packet packet) _ _ o => match turn : s.loop.scan with
    | some (some i, _) => decidable_of_iff
        ((load16 (ofBytes packet) commandAt = dataDelivery → (s.vars i).bytesRead ≠ 0 →
            o.realloc ≠ none ∧ (s.vars i).bytesRead + dataLen (ofBytes packet) ≠ 0) ∧
          (s.spent i = true →
            load16 (ofBytes packet) commandAt ≠ dataDelivery ∧ load16 (ofBytes packet) commandAt ≠ dataStore))
        (by simp only [KeepsBytes, turn])
    | some (none, _) => .isTrue (by simp only [KeepsBytes, turn])
    | none => .isTrue (by simp only [KeepsBytes, turn])
  | .scan .failed _ _ _ | .scan .closed _ _ _ | .select _ | .accept _ => .isTrue trivial

theorem KeepsBytes.noReuse {s s' : SelectServer} {e : SelectEvent} (keeps : KeepsBytes s e s') : NoReuse s e s' := by
  unfold KeepsBytes at keeps
  unfold NoReuse
  split
  · split
    next turn =>
      rw [turn] at keeps
      exact keeps.2
    next => trivial
  · trivial

theorem KeepsPointer.keepsBytes {s s' : SelectServer} {e : SelectEvent} (keeps : KeepsPointer s e s')
    (unspent : ∀ i, s.spent i = false) : KeepsBytes s e s' := by
  unfold KeepsPointer at keeps
  unfold KeepsBytes
  split
  · split
    next turn =>
      rw [turn] at keeps
      exact ⟨keeps.1, by simp [unspent]⟩
    next => trivial
  · trivial

def StoresDelivered (log : List Entry) : Prop :=
  ∀ before entry after, log = before ++ entry :: after →
    ∀ name bytes, entry.effects.written = some (name, bytes) → bytes = delivered before

theorem StoresDelivered.last {log : List Entry} {entry : Entry} (stores : StoresDelivered log)
    (own : ∀ name bytes, entry.effects.written = some (name, bytes) → bytes = delivered log) :
    StoresDelivered (log ++ [entry]) := by
  intro before stored after split
  cases after using List.reverseRecOn with
  | nil =>
    obtain ⟨rfl, same⟩ := List.append_inj' split rfl
    obtain rfl := (List.cons.inj same).1
    exact own
  | append_singleton after last =>
    rw [← List.cons_append, ← List.append_assoc] at split
    exact stores before stored after (List.append_inj' split rfl).1

structure SelectServer.Clean (s : SelectServer) : Prop where
  wired : s.Wired
  separate : s.Separate
  holds : ∀ i c, s.Serves i c → s.spent i = false → HoldsBytes s.heap (s.vars i) (delivered (s.log c))
  stores : ∀ c, StoresDelivered (s.log c)
  -- a FILE_STORED comes of a `write` that has succeeded
  writes : ∀ c, ∀ entry ∈ s.log c, Effects.answers entry.effects fileStored = true →
    entry.effects.written.isSome ∧ entry.outcome.writes.isSome

theorem SelectServer.Starts.clean {s : SelectServer} (starts : s.Starts) : s.Clean where
  wired := starts.wired
  separate := starts.separate
  holds i c serves := by simp [SelectServer.Serves, NetProg.Serves, starts.sockets] at serves
  stores c := by simp [starts.log, StoresDelivered]
  writes c := by simp [starts.log]

theorem holds_nothing (heap : Heap) : HoldsBytes heap noVars [] := ⟨rfl, .inl ⟨rfl, rfl⟩⟩

theorem handle_spent {heap : Heap} {v : SlotVars} {serverSendPkt serverRecvPkt : Block} {o : SelectOutcome}
    {h : SlotHandled} (noDelivery : load16 serverRecvPkt commandAt ≠ dataDelivery)
    (noStore : load16 serverRecvPkt commandAt ≠ dataStore)
    (handled : handleClientRequest heap v serverSendPkt serverRecvPkt o = some h) :
    h.effects.written = none ∧ Effects.answers h.effects fileStored = false := by
  simp only [handleClientRequest, if_neg noDelivery, if_neg noStore] at handled
  split_ifs at handled
  · obtain rfl := Option.some.inj handled
    simp only [sendReply_answers]
    exact ⟨rfl, rfl⟩
  · obtain rfl := Option.some.inj handled
    exact ⟨rfl, rfl⟩

theorem SelectServer.Moves.clean {s s' : SelectServer} {e : SelectEvent} (clean : s.Clean)
    (keeps : KeepsBytes s e s') (moves : s.Moves e s') : s'.Clean := by
  have wired := moves.wired clean.wired
  have noReuse := keeps.noReuse
  have separate := moves.separate clean.separate noReuse
  cases moves with
  | loops _ loop slots =>
    refine ⟨wired, separate, fun i c serves => clean.holds i c ?_, clean.stores, clean.writes⟩
    simpa only [SelectServer.Serves, slots] using serves
  | accepts _ loop sockfd positive closed takes =>
    refine ⟨wired, separate, fun i c serves valid => ?_, clean.stores, clean.writes⟩
    rcases clean.wired.wiring.serves_accept takes closed serves with before | ⟨empty, rfl⟩
    · exact clean.holds i c before valid
    · -- the new connection, in a slot that was free
      simp only [(clean.wired.free i empty.asymm).1, clean.wired.unused _ le_rfl]
      exact holds_nothing _
  | closes _ loop i slots occupied =>
    refine ⟨wired, separate, fun j c serves valid => ?_, clean.stores, clean.writes⟩
    simp only [SelectServer.Serves, SelectServer.close, FdPool.closeSlot, slots] at serves
    obtain ⟨other, before⟩ := Wiring.serves_close serves
    simp only [SelectServer.close, Function.update_of_ne other] at valid ⊢
    exact clean.holds j c before valid
  | handles packet serverSendPkt serverRecvPkt o loop i c h slots turn serves formed handled =>
    have carries := formed.carries serverRecvPkt
    have len : dataLen (receivePkt serverRecvPkt (headerLength + dataSize) packet) = dataLen (ofBytes packet) := by
      rw [dataLen, dataLen, carries.length, formed.length, List.length_drop, Nat.add_sub_cancel' formed.low]
    simp only [KeepsBytes, turn, ← len] at keeps
    let entry : Entry := { packet, outcome := o.seenAlone, effects := h.effects }
    have same : entry.effects = h.effects := rfl
    have logged : (s.handled i c loop entry h).log c = s.log c ++ [entry] := Function.update_self ..
    obtain ⟨holds, own, answered⟩ : (s.spent i = false → h.freed = false →
          HoldsBytes h.heap h.vars (deliveredBy (delivered (s.log c)) entry)) ∧
        (∀ name content, h.effects.written = some (name, content) → content = delivered (s.log c)) ∧
        (Effects.answers h.effects fileStored = true → h.effects.written.isSome ∧ o.writes.isSome) := by
      cases spent : s.spent i with
      | false =>
        obtain ⟨holds, own, answered⟩ :=
          handle_holds (clean.holds i c serves spent) carries formed.fits keeps.1 handled same rfl
        exact ⟨fun _ => holds, own, answered⟩
      | true =>
        obtain ⟨noDelivery, noStore⟩ := keeps.2 spent
        rw [← carries.command] at noDelivery noStore
        obtain ⟨nothing, silent⟩ := handle_spent noDelivery noStore handled
        refine ⟨fun valid => ?_, fun _ _ written => ?_, fun stored => ?_⟩
        · cases valid
        · cases nothing.symm.trans written
        · cases silent.symm.trans stored
    refine ⟨wired, separate, fun j c' serves' valid' => ?_, fun c' => ?_, fun c' => ?_⟩
    · simp only [SelectServer.Serves, SelectServer.handled, slots] at serves'
      by_cases same : j = i
      · subst same
        obtain rfl := Option.some.inj (serves'.2.symm.trans serves.2)
        have vars : (s.handled j c' loop entry h).vars j = h.vars := Function.update_self ..
        simp only [SelectServer.handled, Function.update_self, Bool.or_eq_false_iff] at valid'
        rw [logged, vars, delivered, List.foldl_append]
        exact holds valid'.1 valid'.2
      · have other : c' ≠ c := by
          rintro rfl
          exact same (clean.wired.wiring.one serves' serves)
        simp only [SelectServer.handled, Function.update_of_ne same] at valid'
        simp only [SelectServer.handled, Function.update_of_ne same, Function.update_of_ne other]
        exact (clean.holds j c' serves' valid').congr
          (clean.separate.deref formed handled (noReuse.quiet turn) same valid')
    · by_cases same : c' = c
      · subst same
        rw [logged]
        exact (clean.stores c').last own
      · simp only [SelectServer.handled, Function.update_of_ne same]
        exact clean.stores c'
    · by_cases same : c' = c
      · subst same
        rw [logged]
        intro write member
        rcases List.mem_append.mp member with earlier | last
        · exact clean.writes c' write earlier
        · obtain rfl := List.mem_singleton.mp last
          exact answered
      · simp only [SelectServer.handled, Function.update_of_ne same]
        exact clean.writes c'

theorem clean_reachable {s : SelectServer} (reached : selectServer.ReachableWhile KeepsBytes s) : s.Clean := by
  apply reached.invariant
  · exact fun _ starts => SelectServer.Starts.clean starts
  · exact fun _ _ _ _ clean keeps stepped => (SelectServer.step_moves stepped).clean clean keeps

theorem SelectServer.Moves.unspent {s s' : SelectServer} {e : SelectEvent} (unspent : ∀ i, s.spent i = false)
    (keeps : KeepsPointer s e s') (moves : s.Moves e s') (j : Slot) : s'.spent j = false := by
  cases moves with
  | loops _ loop slots => exact unspent j
  | accepts _ loop sockfd positive closed takes => exact unspent j
  | closes _ loop i slots occupied =>
    by_cases same : j = i
    · simp [SelectServer.close, same]
    · simp only [SelectServer.close, Function.update_of_ne same, unspent]
  | handles packet serverSendPkt serverRecvPkt o loop i c h slots turn serves formed handled =>
    simp only [KeepsPointer, turn, ← (formed.carries serverRecvPkt).command] at keeps
    by_cases same : j = i
    · simp [SelectServer.handled, same, unspent, handle_unfreed keeps.2 handled]
    · simp only [SelectServer.handled, Function.update_of_ne same, unspent]

theorem pointer_reachable {s : SelectServer} (reached : selectServer.ReachableWhile KeepsPointer s) :
    s.Clean ∧ ∀ i, s.spent i = false := by
  refine reached.invariant (P := fun s => s.Clean ∧ ∀ i, s.spent i = false) ?_ ?_
  · intro s starts
    exact ⟨SelectServer.Starts.clean starts, fun i => by rw [SelectServer.Starts.spent starts]⟩
  · rintro s e s' - ⟨clean, unspent⟩ keeps stepped
    have moves := SelectServer.step_moves stepped
    exact ⟨moves.clean clean (keeps.keepsBytes unspent), moves.unspent unspent keeps⟩

inductive SelectServer.OwnsBuffer (s : SelectServer) (i : Slot) : Prop where
  | null (pointer : (s.vars i).buffer = 0) (count : (s.vars i).bytesRead = 0)
  | live (c : Nat) (b : Buffer) (serves : s.Serves i c) (allocated : s.heap.deref (s.vars i).buffer = some b)
      (apart : ∀ j, j ≠ i → (s.vars j).buffer ≠ (s.vars i).buffer) (inside : (s.vars i).bytesRead.toNat ≤ b.size)
      (bytes : load b.bytes 0 (s.vars i).bytesRead.toNat = delivered (s.log c))

def sendsWith (o : SelectOutcome) (command : UInt16) (data : List UInt8) : List SelectEvent :=
  [.select [4], .accept none, .scan (.packet (message 0 command data)) zeroed zeroed o, nothingReady]

def oneDelivered : List SelectEvent :=
  connects 0 ++ sends 0 clientHello [] ++ sends 0 dataDelivery [1]

end NetProg.P2
