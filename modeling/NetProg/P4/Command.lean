import NetProg.P4.FileTable
import NetProg.Shared.Text

set_option autoImplicit false

namespace NetProg.P4

open Memory Text

inductive Command where
  | wrong
  | get (reqFile destFile : List UInt8)
deriving DecidableEq, Repr

def isDelim (c : UInt8) : Bool := c == 32 || c == 10

-- `get`
def getWord : List UInt8 := [103, 101, 116]

-- `./download/`
def downloadDir : List UInt8 := [46, 47, 100, 111, 119, 110, 108, 111, 97, 100, 47]

abbrev inputLen : Nat := 200

abbrev fileNameLenDir : Nat := 110

def nextToken (m : Block) (start : Nat) : Run Strtok :=
  match strtok isDelim inputLen m start with
  | some result => .ok result
  | none => .error .fault

def copyToken (token : Option (List UInt8)) (before size : Nat) : Run (List UInt8) :=
  -- `strcpy` or `strcat` into an array of `size` bytes that holds `before` of them.
  match token with
  | some token => if before + token.length < size then .ok token else .error .fault
  | none => .error .fault

def parseCommand (inputBuffer : Block) : Run (Command × Block) := do
  let first ← nextToken inputBuffer 0
  match first.token with
  | none => .error .fault
  | some token =>
    if token ≠ getWord then .ok (.wrong, first.m)
    else do
      let second ← nextToken first.m first.next
      let reqFile ← copyToken second.token 0 fileNameLen
      let third ← nextToken second.m second.next
      let destFile ← copyToken third.token downloadDir.length fileNameLenDir
      .ok (.get reqFile (downloadDir ++ destFile), third.m)

structure Terminal where
  inputBuffer : Block
  stdin : List UInt8

def Terminal.command (t : Terminal) : Run (Command × Terminal) :=
  let (inputBuffer, stdin) := fgets t.inputBuffer inputLen t.stdin
  (parseCommand inputBuffer).map fun (command, inputBuffer) => (command, { inputBuffer, stdin })

def Terminal.commands (t : Terminal) : Nat → Run (List Command × Terminal)
  | 0 => .ok ([], t)
  | n + 1 => do
    let (command, t) ← t.command
    let (rest, t) ← t.commands n
    .ok (command :: rest, t)

def commandOf : List (List UInt8) → Run Command
  | [] => .error .fault
  | first :: rest =>
    if first ≠ getWord then .ok .wrong
    else match rest with
      | reqFile :: destFile :: _ =>
        if reqFile.length < fileNameLen ∧ downloadDir.length + destFile.length < fileNameLenDir then
          .ok (.get reqFile (downloadDir ++ destFile))
        else .error .fault
      | _ => .error .fault

structure Line (line : List UInt8) : Prop where
  -- A line that `fgets` returns whole, without its newline.
  single : ∀ c ∈ line, c ≠ 10
  clean : ∀ c ∈ line, c ≠ 0
  short : line.length + 2 ≤ inputLen

def WordsFit (words : List (List UInt8)) : Prop :=
  ∃ first rest, words = first :: rest ∧ (first = getWord → ∃ reqFile destFile more, rest = reqFile :: destFile :: more ∧
    reqFile.length < fileNameLen ∧ downloadDir.length + destFile.length < fileNameLenDir)

theorem commandOf_ok_iff (words : List (List UInt8)) : (∃ command, commandOf words = .ok command) ↔ WordsFit words := by
  constructor
  · rintro ⟨command, ran⟩
    cases words with
    | nil => cases ran
    | cons first rest =>
      refine ⟨first, rest, rfl, fun get => ?_⟩
      simp only [commandOf, if_neg (not_not.mpr get)] at ran
      split at ran
      next reqFile destFile more =>
        split_ifs at ran with fit
        exact ⟨reqFile, destFile, more, rfl, fit⟩
      next => cases ran
  · rintro ⟨first, rest, rfl, fits⟩
    by_cases get : first = getWord
    · obtain ⟨reqFile, destFile, more, rfl, fit⟩ := fits get
      exact ⟨_, by rw [commandOf, if_neg (not_not.mpr get)]; exact if_pos fit⟩
    · exact ⟨_, if_pos get⟩

theorem nextToken_words {m : Block} {start : Nat} {text : List UInt8} (text_at : TextAt inputLen m start text) :
    (words isDelim text = [] ∧ ∃ next, nextToken m start = .ok { token := none, m, next }) ∨
      ∃ token rest m' next, words isDelim text = token :: words isDelim rest ∧
        nextToken m start = .ok { token := some token, m := m', next } ∧ TextAt inputLen m' next rest := by
  have nul : isDelim 0 = false := rfl
  rcases strtok_words nul text_at with ⟨missing, next, ran⟩ | ⟨token, rest, m', next, found, ran, later⟩
  · exact .inl ⟨missing, next, by rw [nextToken, ran]⟩
  · exact .inr ⟨token, rest, m', next, found, by rw [nextToken, ran], later⟩

theorem parseCommand_words {inputBuffer : Block} {text : List UInt8} (text_at : TextAt inputLen inputBuffer 0 text) :
    (parseCommand inputBuffer).map Prod.fst = commandOf (words isDelim text) := by
  simp only [parseCommand, bind, Except.bind]
  rcases nextToken_words text_at with ⟨missing, next, ran⟩ | ⟨first, rest, m, next, found, ran, rest_at⟩
  · rw [ran, missing]
    rfl
  rw [ran, found]
  by_cases get : first = getWord
  · simp only [commandOf, if_neg (not_not.mpr get)]
    rcases nextToken_words rest_at with ⟨missing, _, ran⟩ | ⟨reqFile, rest, m, next, found, ran, rest_at⟩
    · rw [ran, missing]
      rfl
    rw [ran, found]
    simp only [copyToken, Nat.zero_add]
    rcases nextToken_words rest_at with ⟨missing, _, ran⟩ | ⟨destFile, rest, m, next, found, ran, -⟩
    · rw [missing]
      split_ifs <;> simp [ran, Except.map]
    rw [found]
    by_cases short : reqFile.length < fileNameLen <;>
      by_cases fit : downloadDir.length + destFile.length < fileNameLenDir <;>
        simp only [ran, short, fit, if_true, if_false, and_self, and_true, and_false, Except.map]
  · simp only [commandOf, if_pos get, Except.map]

section Lines

variable {line : List UInt8}

theorem line_textAt (valid : Line line) (inputBuffer : Block) :
    TextAt inputLen (storeString inputBuffer 0 (line ++ [10])) 0 (line ++ [10]) := by
  have short := valid.short
  constructor
  case bytes => exact load_store inputBuffer 0 (line ++ [10] ++ [0])
  case inside =>
    rw [List.length_append, List.length_singleton]
    omega
  case clean =>
    intro c member
    rcases List.mem_append.mp member with inside | newline
    · exact valid.clean c inside
    · obtain rfl := List.mem_singleton.mp newline
      decide

theorem command_line (valid : Line line) (inputBuffer : Block) (rest : List UInt8) :
    ∃ parsed : Run (Command × Block), parsed.map Prod.fst = commandOf (words isDelim line) ∧
      Terminal.command { inputBuffer, stdin := line ++ 10 :: rest } =
        parsed.map fun parsed => (parsed.1, { inputBuffer := parsed.2, stdin := rest }) := by
  have short := valid.short
  refine ⟨parseCommand (storeString inputBuffer 0 (line ++ [10])), ?_, ?_⟩
  · rw [parseCommand_words (line_textAt valid inputBuffer), words_cons line rfl]
    simp [words]
  · rw [Terminal.command, fgets_whole inputBuffer valid.single (by omega)]

theorem commands_mapM {lines : List (List UInt8)} (valid : ∀ line ∈ lines, Line line) (inputBuffer : Block)
    (rest : List UInt8) :
    (Terminal.commands { inputBuffer, stdin := lines.flatMap (· ++ [10]) ++ rest } lines.length).map Prod.fst =
      lines.mapM fun line => commandOf (words isDelim line) := by
  induction lines generalizing inputBuffer with
  | nil => rfl
  | cons line lines ih =>
    obtain ⟨parsed, first, ran⟩ := command_line (valid line (by simp)) inputBuffer (lines.flatMap (· ++ [10]) ++ rest)
    rw [List.mapM_cons, ← first, List.length_cons, List.flatMap_cons, List.append_assoc, List.append_assoc,
      List.singleton_append]
    simp only [Terminal.commands, ran, bind, Except.bind]
    cases parsed with
    | error stuck => rfl
    | ok parsed =>
      simp only [Except.map]
      rw [← ih (fun line member => valid line (by simp [member])) parsed.2]
      cases Terminal.commands { inputBuffer := parsed.2, stdin := lines.flatMap (· ++ [10]) ++ rest } lines.length <;> rfl

theorem mapM_ok_iff (lines : List (List UInt8)) :
    (∃ commands, lines.mapM (fun line => commandOf (words isDelim line)) = .ok commands) ↔
      ∀ line ∈ lines, WordsFit (words isDelim line) := by
  induction lines with
  | nil => exact iff_of_true ⟨[], rfl⟩ (by simp)
  | cons line lines ih =>
    rw [List.forall_mem_cons, ← ih, ← commandOf_ok_iff, List.mapM_cons]
    simp only [bind, Except.bind]
    constructor
    · rintro ⟨commands, ran⟩
      split at ran
      next => cases ran
      next command first =>
        split at ran
        next => cases ran
        next rest later => exact ⟨⟨command, first⟩, rest, later⟩
    · rintro ⟨⟨command, first⟩, rest, later⟩
      exact ⟨command :: rest, by rw [first, later]; rfl⟩

theorem commands_of_lines {lines : List (List UInt8)} (valid : ∀ line ∈ lines, Line line) (inputBuffer : Block)
    (rest : List UInt8) :
    (Terminal.commands { inputBuffer, stdin := lines.flatMap (· ++ [10]) ++ rest } lines.length).map Prod.fst =
        lines.mapM (fun line => commandOf (words isDelim line)) ∧
      ((∃ result, Terminal.commands { inputBuffer, stdin := lines.flatMap (· ++ [10]) ++ rest } lines.length = .ok result) ↔
        ∀ line ∈ lines, WordsFit (words isDelim line)) := by
  have parsed := commands_mapM valid inputBuffer rest
  refine ⟨parsed, ?_⟩
  rw [← mapM_ok_iff, ← parsed]
  cases Terminal.commands { inputBuffer, stdin := lines.flatMap (· ++ [10]) ++ rest } lines.length with
  | error stuck => simp [Except.map]
  | ok result => exact iff_of_true ⟨result, rfl⟩ ⟨result.1, rfl⟩

end Lines

theorem one_get_line :
    (Terminal.commands { inputBuffer := fun _ => 0, stdin := [103, 101, 116, 32, 97, 32, 98, 10] } 1).map Prod.fst =
      .ok [.get [97] (downloadDir ++ [98])] := by
  have valid : ∀ line ∈ [[103, 101, 116, 32, 97, 32, 98]], Line line := by
    intro line member
    obtain rfl := List.mem_singleton.mp member
    exact ⟨by decide +kernel, by decide +kernel, by decide⟩
  exact (commands_of_lines valid (fun _ => 0) []).1.trans rfl

section EndOfInput

variable {t t' : Terminal}

theorem nextToken_ok {m : Block} {start : Nat} {result : Strtok} :
    nextToken m start = .ok result ↔ strtok isDelim inputLen m start = some result := by
  simp only [nextToken]
  split
  next found => simp [found]
  next missing => simp [missing]

theorem parseCommand_again {inputBuffer inputBuffer' : Block} {command : Command}
    (ran : parseCommand inputBuffer = .ok (command, inputBuffer')) :
    parseCommand inputBuffer' = if command = .wrong then .ok (.wrong, inputBuffer') else .error .fault := by
  simp only [parseCommand, bind, Except.bind] at ran
  split at ran
  next => cases ran
  next first one =>
    rw [nextToken_ok] at one
    cases found : first.token with
    | none => simp [found] at ran
    | some token =>
      simp only [found] at ran
      split_ifs at ran with other
      · obtain ⟨rfl, rfl⟩ := Prod.mk.inj (Except.ok.inj ran)
        have same : ∀ j ≤ first.next, first.m j = first.m j := fun _ _ => rfl
        obtain ⟨next, again, -⟩ := strtok_again rfl one found same
        simp only [parseCommand, bind, Except.bind, nextToken_ok.mpr again, if_pos other, if_pos]
      · split at ran
        next => cases ran
        next second two =>
          rw [nextToken_ok] at two
          split at ran
          next => cases ran
          next =>
            split at ran
            next => cases ran
            next third three =>
              rw [nextToken_ok] at three
              split at ran
              next => cases ran
              next =>
                obtain ⟨rfl, rfl⟩ := Prod.mk.inj (Except.ok.inj ran)
                -- the later tokens end behind the first
                have kept (j : Nat) (before : j ≤ first.next) : third.m j = first.m j := by
                  obtain ⟨onward, same⟩ := strtok_frame two
                  exact ((strtok_frame three).2 j (before.trans onward)).trans (same j before)
                obtain ⟨next, again, nothing⟩ := strtok_again rfl one found kept
                simp only [parseCommand, bind, Except.bind, nextToken_ok.mpr again, if_neg other,
                  nextToken_ok.mpr nothing, copyToken, reduceCtorEq, if_false]

theorem command_ended (inputBuffer : Block) : Terminal.command { inputBuffer, stdin := [] } =
    (parseCommand inputBuffer).map fun parsed => (parsed.1, { inputBuffer := parsed.2, stdin := [] }) := rfl

theorem command_at_end {c : Command} (ran : t.command = .ok (c, t')) (ended : t'.stdin = []) :
    t'.command = if c = .wrong then .ok (.wrong, t') else .error .fault := by
  simp only [Terminal.command] at ran
  generalize fgets t.inputBuffer inputLen t.stdin = line at ran
  cases parsed : parseCommand line.1 with
  | error stuck => simp [parsed, Except.map] at ran
  | ok result =>
    simp only [parsed, Except.map, Except.ok.injEq, Prod.mk.injEq] at ran
    obtain ⟨rfl, rfl⟩ := ran
    simp only at ended
    rw [ended, command_ended, parseCommand_again parsed]
    split_ifs <;> rfl

def Terminal.RunsForEver (t : Terminal) : Prop := ∀ n, t.commands n = .ok (List.replicate n .wrong, t)

theorem commands_repeat (stays : t.command = .ok (.wrong, t)) : t.RunsForEver := by
  intro n
  induction n with
  | zero => rfl
  | succ n ih => simp only [Terminal.commands, stays, ih, bind, Except.bind, List.replicate_succ]

theorem fgets_progress (m : Block) {input : List UInt8} (more : input ≠ []) :
    (fgets m inputLen input).2.length < input.length := by
  obtain ⟨c, rest, rfl⟩ := List.exists_cons_of_ne_nil more
  have nonempty : 0 < (fgetsLine (inputLen - 1) (c :: rest)).length := by
    simp only [inputLen, fgetsLine]
    split_ifs <;> simp
  rw [fgets, if_neg more, List.length_drop]
  simp only [List.length_cons]
  omega

theorem command_stdin {c : Command} (ran : t.command = .ok (c, t')) :
    t'.stdin = (fgets t.inputBuffer inputLen t.stdin).2 := by
  simp only [Terminal.command] at ran
  cases parsed : parseCommand (fgets t.inputBuffer inputLen t.stdin).1 with
  | error stuck => simp [parsed, Except.map] at ran
  | ok result =>
    simp only [parsed, Except.map, Except.ok.injEq, Prod.mk.injEq] at ran
    rw [← ran.2]

theorem nextToken_error {m : Block} {start : Nat} {stuck : Stuck} (failed : nextToken m start = .error stuck) :
    stuck = .fault := by
  simp only [nextToken] at failed
  split at failed
  next => cases failed
  next => exact (Except.error.inj failed).symm

theorem copyToken_error {token : Option (List UInt8)} {before size : Nat} {stuck : Stuck}
    (failed : copyToken token before size = .error stuck) : stuck = .fault := by
  simp only [copyToken] at failed
  split at failed
  next =>
    split_ifs at failed
    exact (Except.error.inj failed).symm
  next => exact (Except.error.inj failed).symm

theorem parseCommand_error {inputBuffer : Block} {stuck : Stuck} (ran : parseCommand inputBuffer = .error stuck) :
    stuck = .fault := by
  simp only [parseCommand, bind, Except.bind] at ran
  split at ran
  next failed => exact Except.error.inj ran ▸ nextToken_error failed
  next =>
    split at ran
    next => exact (Except.error.inj ran).symm
    next =>
      split_ifs at ran
      split at ran
      next failed => exact Except.error.inj ran ▸ nextToken_error failed
      next =>
        split at ran
        next failed => exact Except.error.inj ran ▸ copyToken_error failed
        next =>
          split at ran
          next failed => exact Except.error.inj ran ▸ nextToken_error failed
          next =>
            split at ran
            next failed => exact Except.error.inj ran ▸ copyToken_error failed
            next => cases ran

theorem command_error {stuck : Stuck} (ran : t.command = .error stuck) : stuck = .fault := by
  simp only [Terminal.command] at ran
  cases parsed : parseCommand (fgets t.inputBuffer inputLen t.stdin).1 with
  | error other =>
    rw [parsed] at ran
    exact Except.error.inj ran ▸ parseCommand_error parsed
  | ok result => simp [parsed, Except.map] at ran

theorem commands_succ {c : Command} (first : t.command = .ok (c, t')) (n : Nat) :
    t.commands (n + 1) = (t'.commands n).map fun later => (c :: later.1, later.2) := by
  simp only [Terminal.commands, first, bind, Except.bind]
  cases t'.commands n <;> rfl

theorem commands_last {n : Nat} {commands : List Command} (ran : t.commands n = .ok (commands, t')) :
    commands = [] ∧ t' = t ∨ ∃ cs c before, commands = cs ++ [c] ∧ Terminal.command before = .ok (c, t') := by
  induction n generalizing t commands with
  | zero =>
    obtain ⟨rfl, rfl⟩ := Prod.mk.inj (Except.ok.inj ran)
    exact .inl ⟨rfl, rfl⟩
  | succ n ih =>
    cases first : t.command with
    | error stuck => simp [Terminal.commands, first, bind, Except.bind] at ran
    | ok result =>
      rw [commands_succ first] at ran
      cases later : result.2.commands n with
      | error stuck => simp [later, Except.map] at ran
      | ok rest =>
        simp only [later, Except.map, Except.ok.injEq, Prod.mk.injEq] at ran
        obtain ⟨rfl, rfl⟩ := ran
        rcases ih later with ⟨nothing, same⟩ | ⟨cs, c, before, more, last⟩
        · exact .inr ⟨[], result.1, t, by rw [nothing]; rfl, by rw [same]; exact first⟩
        · exact .inr ⟨result.1 :: cs, c, before, by rw [more]; rfl, last⟩

theorem loop_ends (t : Terminal) : (∃ n, t.commands n = .error .fault) ∨
    ∃ n commands t', t.commands n = .ok (commands, t') ∧ t'.stdin = [] ∧ t'.RunsForEver := by
  induction length : t.stdin.length using Nat.strongRecOn generalizing t with
  | ind size ih =>
    cases first : t.command with
    | error stuck =>
      obtain rfl := command_error first
      exact .inl ⟨1, by simp [Terminal.commands, first, bind, Except.bind]⟩
    | ok result =>
      obtain ⟨c, t'⟩ := result
      by_cases ended : t'.stdin = []
      · have last := command_at_end first ended
        split_ifs at last with wrong
        · exact .inr ⟨1, [c], t', by rw [commands_succ first]; rfl, ended, commands_repeat last⟩
        · refine .inl ⟨2, ?_⟩
          rw [commands_succ first]
          simp [Terminal.commands, last, bind, Except.bind, Except.map]
      · have read := command_stdin first
        have more : t.stdin ≠ [] := by
          intro nothing
          rw [nothing] at read
          exact ended read
        have shorter := fgets_progress t.inputBuffer more
        rw [← read, length] at shorter
        rcases ih _ shorter t' rfl with ⟨n, faults⟩ | ⟨n, commands, t'', ran, atEnd, forEver⟩
        · exact .inl ⟨n + 1, by rw [commands_succ first, faults]; rfl⟩
        · exact .inr ⟨n + 1, c :: commands, t'', by rw [commands_succ first, ran]; rfl, atEnd, forEver⟩

theorem input_end_unnoticed (t : Terminal) :
    ((∃ n, t.commands n = .error .fault) ∨
        ∃ n commands t', t.commands n = .ok (commands, t') ∧ t'.stdin = [] ∧ t'.RunsForEver) ∧
      ∀ n commands c t', t.commands n = .ok (commands ++ [c], t') → t'.stdin = [] →
        if c = .wrong then t'.RunsForEver else t'.commands 1 = .error .fault := by
  refine ⟨loop_ends t, fun n commands c t' ran ended => ?_⟩
  obtain ⟨cs, c', before, same, last⟩ := (commands_last ran).resolve_left (by simp)
  obtain rfl : c = c' := by simpa using (List.append_inj' same rfl).2
  have next := command_at_end last ended
  split_ifs at next ⊢
  · exact commands_repeat next
  · simp [Terminal.commands, next, bind, Except.bind]

end EndOfInput

end NetProg.P4
