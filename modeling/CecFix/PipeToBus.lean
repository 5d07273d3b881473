import CecFix.FifoSignals
import CecFix.WireProtocol

/-!
# From the named pipe to the CEC bus

The pipe, the `SIGIO` handler and the daemon as one system. A writer may put any bytes into
the pipe, a `SIGIO` may also come without them (when the last writer closes), and in between
the CEC library calls back with whatever it likes. The callback that the handler of `SIGIO`
runs is `systemStandby` or `systemActive`, to its end. The handler is taken to run once at a
time: a `SIGIO` that is raised meanwhile waits until it has returned, and no other thread
takes it.

The GivePhysicalAddress of `initCEC` is on the bus before any of this and is not counted.
-/

namespace CecFix.PipeToBus
open Lan Cec Fifo WireProtocol

structure System where
  pipe : List UInt8
  pending : Bool
  handler : HandlerPc
  daemon : Daemon

def System.start (host : Bytes) : System := ⟨[], false, .idle, boot (bootState host)⟩

inductive Step where
  | write (bytes : List UInt8)
  | signal
  | handler (net : TvInputs)
  | callback (parsed : Option VcCecMessage) (net : TvInputs)

/-- The callbacks that `main` registers. -/
def registered : Command → TvInputs → Event
  | .off, net => .fifoOff net
  | .on, net => .fifoOn net

def delivered (s : System) : Step → Option Event
  | .write _ | .signal => none
  | .handler net =>
    match s.handler with
    | .read (some c) => some (registered c net)
    | _ => none
  | .callback parsed net => some (.callback parsed net)

def System.moved (s : System) : Step → System
  | .write bytes => { s with pipe := s.pipe ++ bytes, pending := true }
  | .signal => { s with pending := true }
  | .handler _ =>
    match s.handler with
    | .idle => if s.pending then { s with pending := false, handler := .entered } else s
    | .entered =>
      let h := handleSigio s.pipe
      { s with pipe := h.pipe, handler := .read h.callback }
    | .read _ => { s with handler := .idle }
  | .callback _ _ => s

def system : Transducer System Step Effect where
  next s x :=
    match delivered s x with
    | none => s.moved x
    | some e => { s.moved x with daemon := (handle s.daemon e).state }
  emit s x :=
    match delivered s x with
    | none => []
    | some e => (handle s.daemon e).effects

def command? (b : UInt8) : Option Command :=
  if b = digit .off then some .off else if b = digit .on then some .on else none

def commands (bytes : List UInt8) : List Command := bytes.filterMap command?

def Step.bytes : Step → List UInt8
  | .write bytes => bytes
  | .signal | .handler _ | .callback _ _ => []

def called (s : System) : Step → List Command
  | .handler _ =>
    match s.handler with
    | .read callback => callback.toList
    | _ => []
  | _ => []

def System.held (s : System) : List Command := s.handler.inFlight ++ commands s.pipe

@[simp] theorem command_digit (c : Command) : command? (digit c) = some c := by
  cases c <;> rfl

theorem command_some {b : UInt8} {c : Command} (h : command? b = some c) : b = digit c := by
  unfold command? at h
  split_ifs at h with hoff hon
  · rw [hoff, ← Option.some.inj h]
  · rw [hon, ← Option.some.inj h]

@[simp] theorem commands_nil : commands [] = [] := rfl

@[simp] theorem commands_append (xs ys : List UInt8) :
    commands (xs ++ ys) = commands xs ++ commands ys := List.filterMap_append ..

theorem commands_digit (c : Command) (rest : List UInt8) :
    commands (digit c :: rest) = c :: commands rest := by
  rw [commands, List.filterMap_cons_some (command_digit c)]
  rfl

theorem handleSigio_other {b : UInt8} (h : command? b = none) (rest : List UInt8) :
    (handleSigio (b :: rest)).callback = none := by
  unfold command? at h
  split_ifs at h with hoff hon
  simp [handleSigio, fifoCommandSize, CString.load, CString.memcpy, hoff, hon]

theorem handleSigio_first (pipe : List UInt8) :
    (handleSigio pipe).callback = pipe.head?.bind command? := by
  cases pipe with
  | nil => rfl
  | cons b rest =>
    rw [List.head?_cons, Option.bind_some]
    cases h : command? b with
    | none => exact handleSigio_other h rest
    | some c =>
      rw [command_some h]
      exact handleSigio_digit c rest

theorem commands_read (pipe : List UInt8) :
    ((handleSigio pipe).callback.toList ++ commands (handleSigio pipe).pipe).Sublist
      (commands pipe) := by
  rw [handleSigio_pipe, handleSigio_first]
  cases pipe with
  | nil => exact .refl _
  | cons b rest =>
    have hrest : (commands (rest.drop 1)).Sublist (commands rest) :=
      (List.drop_sublist 1 rest).filterMap _
    rw [List.head?_cons, Option.bind_some, List.drop_succ_cons]
    cases h : command? b with
    | none => rwa [commands, commands, List.filterMap_cons_none h]
    | some c =>
      rw [command_some h, commands_digit]
      exact hrest.cons_cons c

theorem next_pipe (s : System) (x : Step) :
    (system.next s x).pipe = (s.moved x).pipe ∧ (system.next s x).handler = (s.moved x).handler := by
  simp only [system]
  split
  · exact ⟨rfl, rfl⟩
  · exact ⟨rfl, rfl⟩

theorem next_held (s : System) (x : Step) : (system.next s x).held = (s.moved x).held := by
  rw [System.held, (next_pipe s x).1, (next_pipe s x).2, System.held]

theorem held_step {R : List Command → List Command → Prop} (refl : ∀ l, R l l) {s : System}
    (read : R ((handleSigio s.pipe).callback.toList ++ commands (handleSigio s.pipe).pipe)
      (commands s.pipe)) (x : Step) :
    R (called s x ++ (system.next s x).held) (s.held ++ commands x.bytes) := by
  rw [next_held]
  cases x with
  | write bytes =>
    have h : called s (.write bytes) ++ (s.moved (.write bytes)).held =
        s.held ++ commands bytes := by
      simp [called, System.moved, System.held]
    exact h ▸ refl _
  | signal =>
    rw [Step.bytes, commands_nil, List.append_nil]
    exact refl _
  | callback parsed net =>
    rw [Step.bytes, commands_nil, List.append_nil]
    exact refl _
  | handler net =>
    rw [Step.bytes, commands_nil, List.append_nil]
    cases hh : s.handler with
    | idle =>
      have h : called s (.handler net) ++ (s.moved (.handler net)).held = s.held := by
        cases hp : s.pending <;> simp [called, System.moved, System.held, HandlerPc.inFlight, hh, hp]
      exact h ▸ refl _
    | entered =>
      simpa [called, System.moved, System.held, HandlerPc.inFlight, hh] using read
    | read callback =>
      have h : called s (.handler net) ++ (s.moved (.handler net)).held = s.held := by
        simp [called, System.moved, System.held, HandlerPc.inFlight, hh]
      exact h ▸ refl _

/-- As written by `echo`. -/
def echoed (c : Command) : List UInt8 := [digit c, 0x0A]

def Step.Whole : Step → Prop
  | .write bytes => ∃ c, bytes = echoed c
  | _ => True

def Lined (s : System) : Prop := ∃ cs : List Command, s.pipe = cs.flatMap echoed

theorem commands_line (c : Command) (rest : List UInt8) :
    commands (echoed c ++ rest) = c :: commands rest := by
  rw [echoed, List.cons_append, commands_digit]
  rfl

theorem read_lines (cs : List Command) :
    (handleSigio (cs.flatMap echoed)).callback.toList ++
        commands (handleSigio (cs.flatMap echoed)).pipe = commands (cs.flatMap echoed) ∧
      (handleSigio (cs.flatMap echoed)).pipe = cs.tail.flatMap echoed := by
  cases cs with
  | nil => exact ⟨rfl, rfl⟩
  | cons c cs =>
    have hpipe : (handleSigio ((c :: cs).flatMap echoed)).pipe = cs.flatMap echoed := by
      rw [handleSigio_pipe]
      rfl
    refine ⟨?_, hpipe⟩
    rw [hpipe, List.flatMap_cons, commands_line]
    have hcall : (handleSigio (echoed c ++ cs.flatMap echoed)).callback = some c :=
      handleSigio_digit c _
    rw [hcall]
    rfl

theorem lined_next {s : System} {x : Step} (h : Lined s) (hx : x.Whole) :
    Lined (system.next s x) := by
  obtain ⟨cs, hpipe⟩ := h
  rw [Lined, (next_pipe s x).1]
  cases x with
  | write bytes =>
    obtain ⟨c, rfl⟩ := hx
    exact ⟨cs ++ [c], by simp [System.moved, hpipe]⟩
  | signal => exact ⟨cs, hpipe⟩
  | callback parsed net => exact ⟨cs, hpipe⟩
  | handler net =>
    cases hh : s.handler with
    | idle => exact ⟨cs, by cases hp : s.pending <;> simp [System.moved, hh, hp, hpipe]⟩
    | entered =>
      refine ⟨cs.tail, ?_⟩
      simp [System.moved, hh, hpipe, (read_lines cs).2]
    | read callback => exact ⟨cs, by simp [System.moved, hh, hpipe]⟩

def calls (s : System) (xs : List Step) : List Command := ((system.observe called).outputs s xs).flatten

theorem written_commands (xs : List Step) :
    xs.flatMap (fun x => commands x.bytes) = commands (xs.flatMap Step.bytes) :=
  (List.filterMap_flatMap ..).symm

/-- However writes, signals and reads fall: callbacks are run for commands that were
written, in the order in which they were, each at most once. If every write is one whole
line, none is passed over: what has not been run waits in the pipe. -/
theorem commands_in_order (host : Bytes) (xs : List Step) :
    let held := (system.run (.start host) xs).held
    (calls (.start host) xs ++ held).Sublist (commands (xs.flatMap Step.bytes)) ∧
      ((∀ x ∈ xs, x.Whole) →
        calls (.start host) xs ++ held = commands (xs.flatMap Step.bytes)) := by
  intro held
  rw [← written_commands]
  constructor
  · exact Transducer.flow (I := fun _ => True) (C := fun _ _ => True) List.Sublist.refl
      List.Sublist.trans List.Sublist.append called (fun x => commands x.bytes) System.held
      (fun _ _ _ _ => trivial) (fun s x _ _ => held_step .refl (commands_read s.pipe) x) trivial
      (Transducer.along_of_forall (fun _ _ _ => trivial) _)
  · intro hwhole
    refine Transducer.flow (R := Eq) (I := Lined) (C := fun _ x => x.Whole) (fun _ => rfl) Eq.trans
      (fun h h' => h ▸ h' ▸ rfl) called (fun x => commands x.bytes) System.held
      (fun _ _ h hx => lined_next h hx) ?_ ⟨[], rfl⟩
      ((Transducer.along_const_iff _ xs).mpr hwhole)
    rintro s x ⟨cs, hpipe⟩ -
    refine held_step (fun _ => rfl) ?_ x
    rw [hpipe]
    exact (read_lines cs).1

/-! ### What reaches the bus and the projector -/

def isStandby : Effect → Bool
  | .cec (.sendStandby _ _) => true
  | _ => false

def opens (opcode : UInt8) : Effect → Bool
  | .cec (.sendMessage _ (op :: _) _) => op == opcode
  | _ => false

def transmits (code : Bytes) : Effect → Bool
  | .sock e => sends code e
  | .cec _ => false

def received (xs : List Step) (c : Command) : ℕ := (xs.flatMap Step.bytes).count (digit c)

def told (test : VcCecMessage → Bool) : Step → Bool
  | .callback (some m) _ => test m
  | _ => false

theorem commands_count (bytes : List UInt8) (c : Command) :
    (commands bytes).count c = bytes.count (digit c) := by
  rw [commands, List.count_filterMap, List.count]
  refine List.countP_congr fun b _ => ?_
  constructor
  · intro h
    exact beq_iff_eq.mpr (command_some (beq_iff_eq.mp h))
  · intro h
    rw [beq_iff_eq.mp h, command_digit]
    exact beq_self_eq_true _

theorem delivered_cases (s : System) (x : Step) :
    (delivered s x = none ∧ called s x = []) ∨
    (∃ c net, delivered s x = some (registered c net) ∧ called s x = [c] ∧ x = .handler net) ∨
    ∃ parsed net, delivered s x = some (.callback parsed net) ∧ called s x = [] ∧
      x = .callback parsed net := by
  cases x with
  | write bytes => exact Or.inl ⟨rfl, rfl⟩
  | signal => exact Or.inl ⟨rfl, rfl⟩
  | callback parsed net => exact Or.inr (Or.inr ⟨parsed, net, rfl, rfl, rfl⟩)
  | handler net =>
    simp only [delivered, called]
    cases s.handler with
    | idle => exact Or.inl ⟨rfl, rfl⟩
    | entered => exact Or.inl ⟨rfl, rfl⟩
    | read callback =>
      cases callback with
      | none => exact Or.inl ⟨rfl, rfl⟩
      | some c => exact Or.inr (Or.inl ⟨c, net, rfl, rfl, rfl⟩)

def causes (c : Command) (test : VcCecMessage → Bool) : Event → Bool
  | .callback none _ => false
  | .callback (some m) _ => test m
  | .fifoOff _ => c == .off
  | .fifoOn _ => c == .on

inductive Said (s : Daemon) : Event → List Effect → Bool → Prop where
  | nothing (e : Event) : Said s e [] s.wantSetStreamPath
  | standby {e : Event} (h : causes .off isTVOffCmd e = true) :
      Said s e broadcastStandby s.wantSetStreamPath
  | ask (net : TvInputs) : Said s (.fifoOn net) (getPhysicalAddress .eDVD1) true
  | path (net : TvInputs) (a : PhysicalAddress) :
      Said s (.fifoOn net) (setStreamPath a) s.wantSetStreamPath
  | vendor (e : Event) : Said s e broadcastVendorId s.wantSetStreamPath
  | power (e : Event) (d : CecAllDevices) (status : UInt8) :
      Said s e [.cec (.sendMessage d [opcodeReportPowerStatus, status] true)] s.wantSetStreamPath
  | report (e : Event) (a : PhysicalAddress) :
      Said s e (if s.wantSetStreamPath then setStreamPath a else []) false
  | name (e : Event) : Said s e setOSDName s.wantSetStreamPath

theorem handle_said (s : Daemon) (e : Event) :
    ∃ (es : List SockEvent) (said : List Effect), (handle s e).effects = es.map .sock ++ said ∧
      Said s e said (handle s e).state.wantSetStreamPath := by
  cases e with
  | fifoOff net => exact ⟨_, _, rfl, .standby rfl⟩
  | fifoOn net =>
    refine ⟨_, _, rfl, ?_⟩
    change Said s _ _ (setStreamPathToPlayback1 _).state.wantSetStreamPath
    simp only [setStreamPathToPlayback1]
    split
    · exact .ask net
    · exact .nothing _
    · exact .path net _
  | callback parsed net =>
    cases parsed with
    | none => exact ⟨[], [], rfl, .nothing _⟩
    | some m =>
      simp only [handle, handleCECCallback, handleMessage]
      split_ifs with himage hoff hvendor hpower hreport hname
      · exact ⟨_, [], (List.append_nil _).symm, .nothing _⟩
      · exact ⟨_, _, rfl, .standby hoff⟩
      · exact ⟨[], _, rfl, .vendor _⟩
      · obtain ⟨said, heff, rfl | ⟨status, rfl⟩⟩ := replyWithPowerStatus_effects m.initiator s net
        · rw [heff, replyWithPowerStatus_state]
          exact ⟨_, _, rfl, .nothing _⟩
        · rw [heff, replyWithPowerStatus_state]
          exact ⟨_, _, rfl, .power _ _ status⟩
      · rw [handleReport_effects, handleReport_state]
        exact ⟨[], _, rfl, .report _ _⟩
      · exact ⟨[], _, rfl, .name _⟩
      · exact ⟨[], [], rfl, .nothing _⟩

def Rated (p : Effect → Bool) (k : ℤ) (c : Command) (test : VcCecMessage → Bool)
    (φ : Daemon → ℤ) : Prop :=
  ∀ s e, ((handle s e).effects.countP p : ℤ) + φ (handle s e).state ≤
    (if causes c test e then k else 0) + φ s

theorem countP_sock {p : Effect → Bool} (hp : ∀ e, p (.sock e) = false) (es : List SockEvent)
    (said : List Effect) : (es.map Effect.sock ++ said).countP p = said.countP p := by
  have hsock : (es.map Effect.sock).countP p = 0 := by
    rw [List.countP_eq_zero]
    intro e he
    obtain ⟨e', -, rfl⟩ := List.mem_map.mp he
    rw [hp]
    exact Bool.false_ne_true
  rw [List.countP_append, hsock, Nat.zero_add]

theorem rated_of_said {p : Effect → Bool} {k : ℤ} {c : Command} {test : VcCecMessage → Bool}
    (ψ : Bool → ℤ) (hp : ∀ e, p (.sock e) = false)
    (h : ∀ s e said want, Said s e said want → (said.countP p : ℤ) + ψ want ≤
      (if causes c test e then k else 0) + ψ s.wantSetStreamPath) :
    Rated p k c test fun s => ψ s.wantSetStreamPath := by
  intro s e
  obtain ⟨es, said, heff, hsaid⟩ := handle_said s e
  rw [heff, countP_sock hp]
  exact h s e said _ hsaid

theorem allowance_nonneg {k : ℤ} (hk : 0 ≤ k) (b : Bool) : 0 ≤ if b then k else 0 := by
  cases b with
  | true => exact hk
  | false => exact le_rfl

theorem standby_rated : Rated isStandby 1 .off isTVOffCmd fun _ => 0 := by
  apply rated_of_said (fun _ => 0) fun _ => rfl
  intro s e said want h
  have hallow := allowance_nonneg (k := 1) (by decide) (causes .off isTVOffCmd e)
  rw [Int.add_zero, Int.add_zero]
  cases h with
  | standby h =>
    rw [if_pos h]
    exact le_rfl
  | report a => cases s.wantSetStreamPath <;> exact hallow
  | _ => exact hallow

theorem streamPath_rated : Rated (opens opcodeSetStreamPath) 1 .on (fun _ => false)
    fun s => if s.wantSetStreamPath then 1 else 0 := by
  apply rated_of_said (fun want => if want then 1 else 0) fun _ => rfl
  intro s e said want h
  have hallow := allowance_nonneg (k := 1) (by decide) (causes .on (fun _ => false) e)
  have hquiet (said : List Effect) (hsaid : said.countP (opens opcodeSetStreamPath) = 0) :
      (said.countP (opens opcodeSetStreamPath) : ℤ) + (if s.wantSetStreamPath then 1 else 0) ≤
        (if causes .on (fun _ => false) e then 1 else 0) +
          (if s.wantSetStreamPath then 1 else 0) := by
    rw [hsaid]
    exact Int.add_le_add_right hallow _
  cases h with
  | ask net => exact Int.le_add_of_nonneg_right (allowance_nonneg (by decide) _)
  | path net a => cases s.wantSetStreamPath <;> exact le_rfl
  | report a =>
    revert hallow
    cases s.wantSetStreamPath with
    | true => exact fun hallow => Int.add_le_add_right hallow 1
    | false => exact fun hallow => Int.add_le_add_right hallow 0
  | _ => exact hquiet _ rfl

theorem request_rated :
    Rated (opens opcodeGivePhysicalAddress) 1 .on (fun _ => false) fun _ => 0 := by
  apply rated_of_said (fun _ => 0) fun _ => rfl
  intro s e said want h
  have hallow := allowance_nonneg (k := 1) (by decide) (causes .on (fun _ => false) e)
  rw [Int.add_zero, Int.add_zero]
  cases h with
  | ask net => exact le_rfl
  | path net a => exact hallow
  | report a => cases s.wantSetStreamPath <;> exact hallow
  | _ => exact hallow

theorem transmits_count (code : Bytes) (es : List Effect) :
    es.countP (transmits code) = (es.filterMap sock?).countP (sends code) := by
  rw [List.countP_filterMap]
  refine List.countP_congr fun e _ => ?_
  cases e with
  | cec c => exact Iff.rfl
  | sock e => exact Iff.rfl

theorem power_rated {code : Bytes} (hrequest : code ≠ request) (hquery : code ≠ queryPowerCommand)
    {c : Command} {test : VcCecMessage → Bool}
    (hcause : ∀ e, commandOf e = some code → causes c test e = true) :
    Rated (transmits code) 5 c test fun _ => 0 := by
  intro s e
  obtain ⟨asked, sent, heff, hask, hsent⟩ := (handle_budgeted s e).2
  have hasked : asked.countP (sends code) = 0 := sends_other hrequest hquery hask.talks
  rw [transmits_count, heff, List.countP_append, hasked, Nat.zero_add, Int.add_zero, Int.add_zero]
  cases hcode : commandOf e with
  | none =>
    rw [hcode] at hsent
    rw [hsent]
    exact allowance_nonneg (by decide) _
  | some code' =>
    rw [hcode] at hsent
    by_cases heq : code' = code
    · subst heq
      rw [if_pos (hcause e hcode)]
      exact Int.ofNat_le.mpr (hsent.sends_le hrequest)
    · rw [sends_other hrequest (Ne.symm heq) hsent.talks]
      exact allowance_nonneg (by decide) _

def powerCommand : Command → Bytes
  | .off => offCommand
  | .on => onCommand

def askedBy : Command → VcCecMessage → Bool
  | .off => isTVOffCmd
  | .on => isImageViewOn

theorem commandOf_causes (c : Command) (e : Event) (h : commandOf e = some (powerCommand c)) :
    causes c (askedBy c) e = true := by
  have hne : onCommand ≠ offCommand := by decide
  cases e with
  | fifoOff net =>
    cases c with
    | off => rfl
    | on => exact absurd (Option.some.inj h).symm hne
  | fifoOn net =>
    cases c with
    | off => exact absurd (Option.some.inj h) hne
    | on => rfl
  | callback parsed net =>
    cases parsed with
    | none => cases h
    | some m =>
      simp only [commandOf] at h
      split_ifs at h with himage hoff
      · cases c with
        | off => exact absurd (Option.some.inj h) hne
        | on => exact himage
      · cases c with
        | off => exact hoff
        | on => exact absurd (Option.some.inj h).symm hne

section Traffic
variable {p : Effect → Bool} {k : ℤ} {c : Command} {test : VcCecMessage → Bool} {φ : Daemon → ℤ}

def credit (k : ℤ) (c : Command) (test : VcCecMessage → Bool) (x : Step) : ℤ :=
  k * (((commands x.bytes).count c + if told test x then 1 else 0 : ℕ) : ℤ)

theorem held_count (s : System) (x : Step) (c : Command) :
    (called s x).count c + (system.next s x).held.count c ≤
      s.held.count c + (commands x.bytes).count c := by
  have h := (held_step .refl (commands_read s.pipe) x).count_le c
  rwa [List.count_append, List.count_append] at h

theorem moved_daemon (s : System) (x : Step) : (s.moved x).daemon = s.daemon := by
  cases x with
  | write bytes => rfl
  | signal => rfl
  | callback parsed net => rfl
  | handler net =>
    simp only [System.moved]
    cases s.handler with
    | idle => cases s.pending <;> rfl
    | entered => rfl
    | read callback => rfl

theorem registered_causes (c c' : Command) (net : TvInputs) :
    causes c test (registered c' net) = (c' == c) := by
  cases c <;> cases c' <;> rfl

theorem delivered_cost (hk : 0 ≤ k) (h : Rated p k c test φ) (s : System) (x : Step) :
    ((system.emit s x).countP p : ℤ) + φ (system.next s x).daemon ≤
      k * (((called s x).count c + if told test x then 1 else 0 : ℕ) : ℤ) + φ s.daemon := by
  rcases delivered_cases s x with ⟨hdel, -⟩ | ⟨c', net, hdel, hcalled, rfl⟩ |
    ⟨parsed, net, hdel, hcalled, rfl⟩
  · have hemit : system.emit s x = [] := by simp only [system, hdel]
    have hnext : system.next s x = s.moved x := by simp only [system, hdel]
    rw [hemit, hnext, moved_daemon]
    exact Int.add_le_add_right (Int.mul_nonneg hk (Int.natCast_nonneg _)) _
  · have hemit : system.emit s (.handler net) = (handle s.daemon (registered c' net)).effects := by
      simp only [system, hdel]
    have hnext : (system.next s (.handler net)).daemon =
        (handle s.daemon (registered c' net)).state := by
      simp only [system, hdel]
    have hrated := h s.daemon (registered c' net)
    rw [registered_causes] at hrated
    rw [hemit, hnext, hcalled]
    refine hrated.trans (Int.add_le_add_right ?_ _)
    by_cases hc : c' = c
    · subst hc
      simp [told]
    · simp [told, hc]
  · have hemit : system.emit s (.callback parsed net) =
        (handle s.daemon (.callback parsed net)).effects := by
      simp only [system, hdel]
    have hnext : (system.next s (.callback parsed net)).daemon =
        (handle s.daemon (.callback parsed net)).state := by
      simp only [system, hdel]
    rw [hemit, hnext, hcalled]
    refine (h s.daemon (.callback parsed net)).trans (Int.add_le_add_right ?_ _)
    cases parsed with
    | none => simp [told, causes]
    | some m => cases ht : test m <;> simp [told, causes, ht]

theorem traffic_step (hk : 0 ≤ k) (h : Rated p k c test φ) (s : System) (x : Step) :
    ((system.emit s x).countP p : ℤ) +
        (k * ((system.next s x).held.count c : ℤ) + φ (system.next s x).daemon) ≤
      credit k c test x + (k * (s.held.count c : ℤ) + φ s.daemon) := by
  have hcost := delivered_cost hk h s x
  have hheld := Int.mul_le_mul_of_nonneg_left (Int.ofNat_le.mpr (held_count s x c)) hk
  rw [credit]
  push_cast at hcost hheld ⊢
  rw [Int.mul_add] at hcost hheld hheld ⊢
  omega

theorem total_credit (s : System) (xs : List Step) :
    system.total (fun _ x => credit k c test x) s xs =
      k * ((received xs c + xs.countP (told test) : ℕ) : ℤ) := by
  induction xs generalizing s with
  | nil => exact (Int.mul_zero k).symm
  | cons x xs ih =>
    have hcons : received (x :: xs) c = (commands x.bytes).count c + received xs c := by
      rw [commands_count, received, List.flatMap_cons, List.count_append]
      rfl
    rw [Transducer.total_cons, ih, credit, ← Int.mul_add, hcons, List.countP_cons]
    congr 1
    push_cast
    omega

theorem traffic_le (hk : 0 ≤ k) (h : Rated p k c test φ) (host : Bytes) (xs : List Step) :
    ((system.outputs (.start host) xs).flatten.countP p : ℤ) +
        φ (system.run (.start host) xs).daemon ≤
      k * ((received xs c + xs.countP (told test) : ℕ) : ℤ) + φ (boot (bootState host)) := by
  have halong : system.Along (fun _ _ => True) (.start host) xs :=
    Transducer.along_of_forall (fun _ _ _ => trivial) _
  have hrun := Transducer.total_le_of_potential (I := fun _ => True)
    (fun s x => ((system.emit s x).countP p : ℤ)) (fun _ x => credit k c test x)
    (fun s => k * (s.held.count c : ℤ) + φ s.daemon) (fun _ _ _ _ => trivial)
    (fun s x _ _ => traffic_step hk h s x) trivial halong
  have hstart : (System.start host).held.count c = 0 := rfl
  have hheld : 0 ≤ k * ((system.run (.start host) xs).held.count c : ℤ) :=
    Int.mul_nonneg hk (Int.natCast_nonneg _)
  rw [total_credit, hstart, ← Transducer.countP_outputs_eq_total] at hrun
  have hboot : φ (System.start host).daemon = φ (boot (bootState host)) := rfl
  rw [Int.ofNat_zero, Int.mul_zero, Int.zero_add, hboot] at hrun
  omega

end Traffic

theorem told_none (xs : List Step) : xs.countP (told fun _ => false) = 0 := by
  rw [List.countP_eq_zero]
  intro x _
  cases x with
  | callback parsed net => cases parsed <;> exact Bool.false_ne_true
  | _ => exact Bool.false_ne_true

/-- What was put on the bus and on the wire is covered by what came in. A stream path that
is still to be set counts as set. -/
structure Covered (xs : List Step) (t : System) (es : List Effect) : Prop where
  standbys : es.countP isStandby ≤ received xs .off + xs.countP (told isTVOffCmd)
  streamPaths : es.countP (opens opcodeSetStreamPath) +
    (if t.daemon.wantSetStreamPath then 1 else 0) ≤ received xs .on
  requests : es.countP (opens opcodeGivePhysicalAddress) ≤ received xs .on
  power : ∀ c, es.countP (transmits (powerCommand c)) ≤
    5 * (received xs c + xs.countP (told (askedBy c)))

/-- Whatever is written, signalled and called back, in any order: no Standby, SetStreamPath
or GivePhysicalAddress on the bus and no power command to the projector without a byte of
its own in the pipe or, for Standby and the commands, a message that asks for it. Each byte
accounts for one message and five attempts of the command. -/
theorem traffic_covered (host : Bytes) (xs : List Step) :
    Covered xs (system.run (.start host) xs) (system.outputs (.start host) xs).flatten where
  standbys := by
    have h := traffic_le (by decide) standby_rated host xs
    omega
  streamPaths := by
    have h := traffic_le (by decide) streamPath_rated host xs
    have hboot : (boot (bootState host)).wantSetStreamPath = false := rfl
    rw [told_none, hboot] at h
    cases hwant : (system.run (.start host) xs).daemon.wantSetStreamPath with
    | true =>
      rw [hwant, if_pos rfl, if_neg Bool.false_ne_true] at h
      rw [if_pos rfl]
      omega
    | false =>
      rw [hwant, if_neg Bool.false_ne_true] at h
      rw [if_neg Bool.false_ne_true]
      omega
  requests := by
    have h := traffic_le (by decide) request_rated host xs
    rw [told_none] at h
    omega
  power c := by
    have hrequest : powerCommand c ≠ request := by cases c <;> decide
    have hquery : powerCommand c ≠ queryPowerCommand := by cases c <;> decide
    have h := traffic_le (by decide) (power_rated hrequest hquery (commandOf_causes c)) host xs
    omega

end CecFix.PipeToBus
