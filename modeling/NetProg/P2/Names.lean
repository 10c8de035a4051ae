import Mathlib.Data.Nat.Log
import NetProg.P2.Client

set_option autoImplicit false

namespace NetProg.P2

open Memory Upload

-- The number without the digits behind its sixth.
def firstSix (n : UInt32) : UInt32 := UInt32.ofNat (n.toNat / 10 ^ (Nat.log 10 n.toNat - 5))

structure TextsFit (threadNum : UInt32) : Prop where
  number : (printThreadNum threadNum).length < 7
  fileName : (threadFileName (printThreadNum threadNum)).length < 10
  message : (threadMessage (printThreadNum threadNum)).length < 20

def Client.run (c : Client) : List SocketRead → List (List UInt8)
  -- What the loop sends while these reads return.
  | [] => []
  | read :: rest =>
    let (c, packets) := c.iterate read
    packets ++ if c.isOver then [] else c.run rest

def clientSendFile (threadNum : UInt32) (sendUnwritten recvUnwritten : Block) (rand : Nat) (reads : List SocketRead) :
    Option (List (List UInt8)) :=
  (Client.start threadNum sendUnwritten recvUnwritten rand).map fun (c, hello) => hello ++ c.run reads

-- A run of the thread asks in a DATA_STORE for a file of this name.
def StoresUnder (threadNum : UInt32) (name : List UInt8) : Prop :=
  ∃ sendUnwritten recvUnwritten rand reads packets sequence,
    clientSendFile threadNum sendUnwritten recvUnwritten rand reads = some packets ∧
      Upload.message sequence dataStore (name ++ [0]) ∈ packets

structure NamesApart (m n : UInt32) : Prop where
  first : TextsFit m
  second : TextsFit n
  built : threadFileName (printThreadNum m) ≠ threadFileName (printThreadNum n)
  sent : ∀ a b, StoresUnder m a → StoresUnder n b → a ≠ b

theorem take_toDigits (k n : Nat) :
    (Nat.toDigits 10 n).take (k + 1) = Nat.toDigits 10 (n / 10 ^ (Nat.log 10 n - k)) := by
  induction n using Nat.strongRecOn with
  | ind n ih =>
    by_cases short : n < 10 ^ (k + 1)
    · have whole := (Nat.length_toDigits_le_iff (by decide) (Nat.succ_pos k)).mpr short
      have log := Nat.log_lt_of_lt_pow' (Nat.succ_ne_zero k) short
      rw [List.take_of_length_le whole, Nat.sub_eq_zero_of_le (by omega), pow_zero, Nat.div_one]
    · -- the last digit is behind the first `k + 1`
      have large : 10 ^ k ≤ n / 10 := by
        rw [Nat.le_div_iff_mul_le (by decide), ← pow_succ]
        omega
      have several : 10 ≤ n := by
        have positive := Nat.pow_pos (n := k) (show 0 < 10 by decide)
        omega
      have front : k + 1 ≤ (Nat.toDigits 10 (n / 10)).length := by
        by_contra fewer
        cases k with
        | zero => exact fewer Nat.length_toDigits_pos
        | succ k =>
          have few : (Nat.toDigits 10 (n / 10)).length ≤ k + 1 := by omega
          have bound := (Nat.length_toDigits_le_iff (by decide) (Nat.succ_pos k)).mp few
          omega
      have log : Nat.log 10 n = Nat.log 10 (n / 10) + 1 := Nat.log_of_one_lt_of_le (by decide) several
      have reaches : k ≤ Nat.log 10 (n / 10) := Nat.le_log_of_pow_le (by decide) large
      rw [Nat.toDigits_of_base_le (by decide) several, List.take_append_of_le_length front,
        ih (n / 10) (by omega), Nat.div_div_eq_div_mul, log, Nat.succ_sub reaches, pow_succ, Nat.mul_comm]

theorem printThreadNum_digits (n : UInt32) : printThreadNum n = decimal (firstSix n) := by
  have small : n.toNat / 10 ^ (Nat.log 10 n.toNat - 5) < 2 ^ 32 := (Nat.div_le_self _ _).trans_lt n.toNat_lt
  rw [printThreadNum, decimal, ascii, ← List.map_take, take_toDigits, firstSix, decimal, ascii,
    UInt32.toNat_ofNat_of_lt' small]

theorem names_equal_iff (m n : UInt32) :
    threadFileName (printThreadNum m) = threadFileName (printThreadNum n) ↔ firstSix m = firstSix n := by
  rw [printThreadNum_digits, printThreadNum_digits]
  exact ⟨threadFileName_injective, fun same => by rw [same]⟩

theorem printThreadNum_length (n : UInt32) :
    (printThreadNum n).length ≤ 6 ∧ ((printThreadNum n).length ≤ 5 ↔ n.toNat < 100000) := by
  rw [← decimal_length, printThreadNum, List.length_take]
  omega

theorem textsFit_iff (n : UInt32) : TextsFit n ↔ n.toNat < 100000 := by
  obtain ⟨six, five⟩ := printThreadNum_length n
  rw [← five]
  constructor
  · intro fit
    have short := fit.fileName
    rw [length_threadFileName] at short
    omega
  · intro few
    refine ⟨by omega, ?_, ?_⟩
    · rw [length_threadFileName]
      omega
    · rw [length_threadMessage]
      omega

inductive Sends (threadNum : UInt32) : List UInt8 → Prop where
  | hello (sequence : UInt16) : Sends threadNum (message sequence clientHello [])
  | delivery (sequence : UInt16) : Sends threadNum (message sequence dataDelivery (threadMessage (decimal threadNum)))
  | name (sequence : UInt16) : Sends threadNum (message sequence dataStore (threadFileName (decimal threadNum) ++ [0]))
  | error (sequence : UInt16) : Sends threadNum (message sequence error [])

section Run

variable {c : Client} {threadNum : UInt32} {last : UInt16}

theorem handle_sends (sent : c.Sent threadNum last) :
    ∃ next, c.handle.1.Sent threadNum next ∧ ∀ packet ∈ c.handle.2, Sends threadNum packet := by
  by_cases hello : load16 c.clientRecvPkt commandAt = serverHello
  · obtain ⟨packets, next, -⟩ := handle_greeted sent hello
    exact ⟨_, next, fun packet member => List.mem_singleton.mp (packets ▸ member) ▸ .delivery _⟩
  by_cases received : load16 c.clientRecvPkt commandAt = pktReceived
  · obtain ⟨packets, next, -⟩ := handle_delivered sent received
    exact ⟨_, next, fun packet member => List.mem_singleton.mp (packets ▸ member) ▸ .name _⟩
  · simp only [Client.handle, if_neg hello, if_neg received]
    split_ifs
    all_goals exact ⟨last, ⟨sent.message, sent.fileName, sent.static, sent.last⟩, by simp⟩

theorem iterate_sends (sent : c.Sent threadNum last) (read : SocketRead) :
    ∃ next, (c.iterate read).1.Sent threadNum next ∧ ∀ packet ∈ (c.iterate read).2, Sends threadNum packet := by
  cases read with
  | failed =>
    obtain ⟨packets, next⟩ := send_header sent (nextSeq c.clientSendPkt) error
    refine ⟨_, ⟨next.message, next.fileName, next.static, next.last⟩, fun packet member => ?_⟩
    simp only [Client.iterate, packets, List.mem_singleton] at member
    exact member ▸ .error _
  | closed => exact handle_sends sent
  | packet bytes => exact handle_sends ⟨sent.message, sent.fileName, sent.static, sent.last⟩

theorem run_sends (sent : c.Sent threadNum last) (reads : List SocketRead) :
    ∀ packet ∈ c.run reads, Sends threadNum packet := by
  induction reads generalizing c last with
  | nil => simp [Client.run]
  | cons read rest ih =>
    obtain ⟨next, sent', here⟩ := iterate_sends sent read
    intro packet member
    rcases List.mem_append.mp member with now | later
    · exact here packet now
    · split_ifs at later
      · cases later
      · exact ih sent' packet later

theorem Sends.stores {sequence : UInt16} {name : List UInt8}
    (sends : Sends threadNum (message sequence dataStore (name ++ [0]))) : name = threadFileName (decimal threadNum) := by
  generalize asked : message sequence dataStore (name ++ [0]) = packet at sends
  have command := message_command sequence dataStore (name ++ [0])
  have data := message_data sequence dataStore (name ++ [0])
  rw [asked] at command data
  cases sends with
  | hello | delivery | error =>
    rw [message_command] at command
    exact absurd command (by decide)
  | name =>
    rw [message_data] at data
    exact (List.append_cancel_right data).symm

end Run

theorem start_none {n : UInt32} (large : 100000 ≤ n.toNat) (sendUnwritten recvUnwritten : Block) (rand : Nat) :
    Client.start n sendUnwritten recvUnwritten rand = none := by
  have digits := (printThreadNum_length n).2
  refine if_neg fun ⟨_, short⟩ => ?_
  rw [length_threadFileName] at short
  omega

def answers : List SocketRead := [.packet (message 0 serverHello []), .packet (message 0 pktReceived [])]

theorem storesUnder_iff (n : UInt32) (name : List UInt8) :
    StoresUnder n name ↔ n.toNat < 100000 ∧ name = threadFileName (printThreadNum n) := by
  constructor
  · rintro ⟨sendUnwritten, recvUnwritten, rand, reads, packets, sequence, ran, asked⟩
    obtain ⟨⟨c, hello⟩, started, rfl⟩ := Option.map_eq_some_iff.mp ran
    have small : n.toNat < 100000 := by
      by_contra large
      rw [start_none (Nat.le_of_not_lt large)] at started
      cases started
    obtain ⟨c', started', sent, -⟩ := start_eq small sendUnwritten recvUnwritten rand
    obtain ⟨rfl, rfl⟩ := Prod.mk.inj (Option.some.inj (started.symm.trans started'))
    rw [printThreadNum_eq small]
    have sends : Sends n (message sequence dataStore (name ++ [0])) := by
      rcases List.mem_append.mp asked with first | later
      · exact List.mem_singleton.mp first ▸ .hello _
      · exact run_sends sent reads _ later
    exact ⟨small, sends.stores⟩
  · rintro ⟨small, rfl⟩
    obtain ⟨c, started, sent, running⟩ := start_eq small (fun _ => 0) (fun _ => 0) 0
    obtain ⟨c₁, greets, sent₁, running₁⟩ := greeted sent running 0
    obtain ⟨c₂, stores, -, -⟩ := delivered_data sent₁ running₁ 0
    have asked : message (UInt16.ofNat (0 % maxSequence) + 1 + 1) dataStore (threadFileName (decimal n) ++ [0]) ∈
        c.run answers := by
      simp only [answers, Client.run, greets, running₁, stores, List.mem_append, List.mem_singleton, Bool.false_eq_true,
        if_false, true_or, or_true]
    rw [printThreadNum_eq small]
    exact ⟨_, _, 0, answers, _, _, congrArg (Option.map _) started, List.mem_append_right _ asked⟩

theorem client_names_iff (m n : UInt32) (different : m ≠ n) :
    (TextsFit n ↔ n.toNat < 100000) ∧
    (threadFileName (printThreadNum m) = threadFileName (printThreadNum n) ↔ firstSix m = firstSix n) ∧
    (NamesApart m n ↔ m.toNat < 100000 ∧ n.toNat < 100000) := by
  refine ⟨textsFit_iff n, names_equal_iff m n, ?_⟩
  constructor
  · exact fun apart => ⟨(textsFit_iff m).mp apart.first, (textsFit_iff n).mp apart.second⟩
  · rintro ⟨first, second⟩
    have built : threadFileName (printThreadNum m) ≠ threadFileName (printThreadNum n) := by
      rw [printThreadNum_eq first, printThreadNum_eq second]
      exact fun same => different (threadFileName_injective same)
    refine ⟨(textsFit_iff m).mpr first, (textsFit_iff n).mpr second, built, fun a b asks asks' => ?_⟩
    rw [((storesUnder_iff m a).mp asks).2, ((storesUnder_iff n b).mp asks').2]
    exact built

theorem small_numbers_apart : NamesApart 1 99999 := (client_names_iff 1 99999 (by decide)).2.2.mpr (by decide)

-- `100000.txt` has ten characters.
theorem six_digits_overflow : ¬ ∀ m n : UInt32, m ≠ n → NamesApart m n := by
  intro claimed
  have fits := (claimed 100000 1 (by decide)).first.fileName
  revert fits
  decide

end NetProg.P2
