import LearnInLinux.Multiplex.SelectServer

/-!
# Descriptors as bits of an `fd_set`

The server around `select` passes every descriptor of its array to `FD_SET` and
`FD_ISSET`. Its check for room counts the free places of the array; the values of the
descriptors, which are the bits of the set, are never compared with `NUM`. What can be
passed in a run is therefore decided by what `accept` may return.
-/

namespace LearnInLinux
namespace Multiplex
namespace SelectServer

open Slots (search slot slot_eq_some_iff slot_eq_none_iff slot_update slot_free)

/-- A descriptor that is a bit of an `fd_set`. -/
def Fits (fd : Fd) : Prop :=
  0 ≤ fd ∧ fd < NUM

theorem FD_SET_eq_none_iff
    {fd : Fd}
    {set : FdSet} :
    FD_SET fd set = none ↔ ¬ Fits fd := by
  rw [FD_SET]
  exact ite_eq_right_iff.trans (by simp [Fits, NUM, FD_SETSIZE])

theorem FD_ISSET_of_fits
    {fd : Fd}
    (fits : Fits fd)
    (set : FdSet) :
    FD_ISSET fd set = some (decide (fd ∈ set)) :=
  if_pos fits

/-- The loop of `Start` is undefined as soon as one descriptor is no bit of the set. -/
theorem collect_eq_none_iff
    {fdArray : Nat → Fd}
    {left i : Nat}
    {rfds : FdSet}
    {maxfd : Fd} :
    collect fdArray left i rfds maxfd = none ↔
      ∃ j fd, i ≤ j ∧ j < i + left ∧ slot fdArray j = some fd ∧ ¬ Fits fd := by
  induction left generalizing i rfds maxfd with
  | zero =>
      apply iff_of_false (Option.some_ne_none _)
      rintro ⟨j, fd, behind, inside, -⟩
      omega
  | succ left inductionHypothesis =>
      -- The condition on the other descriptors does not depend on what was collected.
      have later (fits : ∀ fd, slot fdArray i = some fd → Fits fd) :
          (∃ j fd, i + 1 ≤ j ∧ j < i + 1 + left ∧ slot fdArray j = some fd ∧ ¬ Fits fd) ↔
            ∃ j fd, i ≤ j ∧ j < i + (left + 1) ∧ slot fdArray j = some fd ∧ ¬ Fits fd := by
        constructor
        · rintro ⟨j, fd, behind, inside, atJ, outside⟩
          exact ⟨j, fd, by omega, by omega, atJ, outside⟩
        · rintro ⟨j, fd, behind, inside, atJ, outside⟩
          refine ⟨j, fd, ?_, by omega, atJ, outside⟩
          rcases Nat.eq_or_lt_of_le behind with rfl | after
          · exact absurd (fits fd atJ) outside
          · exact after
      rw [collect]
      split
      · rename_i free
        rw [inductionHypothesis, later]
        intro fd present
        rw [slot_eq_none_iff.mpr free] at present
        exact absurd present (by simp)
      · rename_i taken
        have present : slot fdArray i = some (fdArray i) := slot_eq_some_iff.mpr ⟨rfl, taken⟩
        split
        · rename_i overflow
          apply iff_of_true rfl
          exact ⟨i, fdArray i, Nat.le_refl i, by omega, present, FD_SET_eq_none_iff.mp overflow⟩
        · rename_i set
          rw [inductionHypothesis, later]
          intro fd atI
          obtain rfl := Option.some.inj (present.symm.trans atI)
          by_contra outside
          rw [FD_SET_eq_none_iff.mpr outside] at set
          exact absurd set (by simp)

namespace State

variable {listensock : Fd} {s t : State}

/-- The descriptors that the next step passes to `FD_SET` or to `FD_ISSET`. -/
def passed (s : State) : Set Fd :=
  match s.point with
  | .waiting => { fd | ∃ i, i < NUM ∧ slot s.fdArray i = some fd }
  | .handling i _ => { fd | i < NUM ∧ slot s.fdArray i = some fd }
  | .undefined => ∅

/-- All descriptors that were passed to the macros fit into the set. -/
def InRange (s : State) : Prop :=
  ∀ fd ∈ s.passed, Fits fd

/-- The descriptors that `accept` has returned in a run are of a kind. -/
def Accepts (allowed : Set Fd) (s : State) : Prop :=
  ∀ fd number, .accepted fd number ∈ s.history → fd ∈ allowed

/-- What is passed is in the array. -/
theorem slot_of_mem_passed
    {fd : Fd}
    (isPassed : fd ∈ s.passed) :
    ∃ i, i < NUM ∧ slot s.fdArray i = some fd := by
  rw [passed] at isPassed
  split at isPassed
  · exact isPassed
  · exact ⟨_, isPassed⟩
  · exact absurd isPassed (Set.notMem_empty fd)

/-- Where everything that is passed is in range, the next step is defined. -/
theorem InRange.point_ne_undefined
    {select : Select}
    (inRange : s.InRange)
    (stepped : Step select listensock s t) :
    t.point ≠ .undefined := by
  cases stepped with
  | select here collected returned =>
      rw [switch]
      split
      · rw [here]
        simp
      · split
        · rw [here]
          simp
        · simp
  | undefined here overflow =>
      obtain ⟨j, fd, -, inside, atJ, outside⟩ := collect_eq_none_iff.mp overflow
      refine absurd (inRange fd ?_) outside
      rw [passed, here]
      exact ⟨j, by omega, atJ⟩
  | @turn i rfds result t here inside handled =>
      rcases HandlerEvent_cases handled with rfl | ⟨taken, ⟨overflow, -⟩ | ⟨-, outcome⟩⟩
      · simp [goto]
      · have fits : Fits (s.fdArray i) := by
          apply inRange
          rw [passed, here]
          exact ⟨inside, slot_eq_some_iff.mpr ⟨rfl, taken⟩⟩
        rw [FD_ISSET_of_fits fits] at overflow
        exact absurd overflow (Option.some_ne_none _)
      · rcases outcome with ⟨-, accepting, -, rfl⟩ | ⟨-, rfl⟩
        · simp [goto]
        · simp [goto]
  | finish here => simp [goto]

/-! ## Where the descriptors of the array come from -/

/-- Behind the listening socket everything in the array was accepted. -/
def Owned (listensock : Fd) (s : State) : Prop :=
  ∀ i fd, slot s.fdArray i = some fd →
    fd = listensock ∨ (0 ≤ fd ∧ ∃ number, .accepted fd number ∈ s.history)

/-- A step that puts nothing into the array. -/
theorem Owned.mono
    (owned : s.Owned listensock)
    (array : ∀ i fd, slot t.fdArray i = some fd → slot s.fdArray i = some fd)
    (history : ∀ event ∈ s.history, event ∈ t.history) :
    t.Owned listensock := by
  intro i fd present
  rcases owned i fd (array i fd present) with listening | ⟨notNegative, number, accepted⟩
  · exact .inl listening
  · exact .inr ⟨notNegative, number, history _ accepted⟩

theorem Owned.create (listensock : Fd) (kernel : Kernel) :
    (State.create listensock kernel).Owned listensock := by
  intro i fd present
  obtain ⟨inArray, isSome⟩ := slot_eq_some_iff.mp present
  change Function.update (fun _ => FD_NONE) 0 listensock i = fd at inArray
  rw [Function.update_apply] at inArray
  split at inArray
  · exact .inl inArray.symm
  · exact absurd inArray.symm isSome

theorem Owned.accept
    {sock : Fd}
    (owned : s.Owned listensock)
    (accepted : s.Accepter listensock sock = some t) :
    t.Owned listensock := by
  rcases Accepter_cases accepted with rfl | ⟨notNegative, -, outcome⟩
  · refine owned.mono (fun _ _ present => present) ?_
    exact fun event before => List.mem_cons_of_mem _ before
  · rcases outcome with ⟨pos, -, -, -, rfl⟩ | ⟨-, rfl⟩
    · intro i fd present
      change slot (Function.update s.fdArray pos sock) i = some fd at present
      have isSome : sock ≠ FD_NONE := by
        rintro rfl
        exact absurd notNegative (by decide)
      rw [slot_update isSome, Function.update_apply] at present
      split at present
      · obtain rfl := Option.some.inj present
        exact .inr ⟨notNegative, _, List.mem_cons_self⟩
      · rcases owned i fd present with listening | ⟨positive, number, before⟩
        · exact .inl listening
        · refine .inr ⟨positive, number, ?_⟩
          exact List.mem_cons_of_mem _ (List.mem_cons_of_mem _ before)
    · refine owned.mono (fun _ _ present => present) ?_
      intro event before
      exact List.mem_cons_of_mem _
        (List.mem_cons_of_mem _ (List.mem_cons_of_mem _ before))

theorem Owned.receive
    (owned : s.Owned listensock)
    (pos : Nat)
    (n : Int) :
    (s.Recver pos n).Owned listensock := by
  rw [Recver]
  split
  · refine owned.mono (fun _ _ present => present) ?_
    exact fun event before => List.mem_cons_of_mem _ before
  · apply owned.mono
    · intro i fd present
      change slot (Function.update s.fdArray pos FD_NONE) i = some fd at present
      rw [slot_free, Function.update_apply] at present
      split at present
      · exact absurd present (by simp)
      · exact present
    · intro event before
      exact List.mem_cons_of_mem _ (List.mem_cons_of_mem _ before)

theorem Owned.step
    {select : Select}
    (owned : s.Owned listensock)
    (stepped : Step select listensock s t) :
    t.Owned listensock := by
  cases stepped with
  | select here collected returned =>
      rw [switch]
      split
      · exact owned
      · split
        · exact owned
        · refine owned.mono (fun _ _ present => present) ?_
          exact fun event before => List.mem_cons_of_mem _ before
  | undefined here overflow => exact owned
  | turn here inside handled =>
      rcases HandlerEvent_cases handled with rfl | ⟨-, ⟨-, rfl⟩ | ⟨-, outcome⟩⟩
      · exact owned
      · exact owned
      · rcases outcome with ⟨-, accepting, accepted, rfl⟩ | ⟨-, rfl⟩
        · have kept := owned.accept accepted
          exact kept
        · exact owned.receive _ _
  | finish here => exact owned

end State

theorem owned (select : Select) (listensock : Fd) :
    (machine select listensock).Invariant (State.Owned listensock) := by
  apply Transition.Machine.invariant_of_steps
  · rintro s ⟨-, kernel, -, rfl⟩
    exact State.Owned.create listensock kernel
  · exact fun s t _ owned stepped => owned.step stepped

/-- What `accept` may return decides what is passed. -/
theorem inRange_of_accepts
    {select : Select}
    {listensock : Fd}
    {allowed : Set Fd}
    {s : State}
    (reached : (machine select listensock).Reachable s)
    (listening : Fits listensock)
    (small : ∀ fd ∈ allowed, 0 ≤ fd → fd ≠ listensock → fd < NUM)
    (accepts : s.Accepts allowed) :
    s.InRange := by
  intro fd isPassed
  obtain ⟨i, -, present⟩ := State.slot_of_mem_passed isPassed
  rcases owned select listensock s reached i fd present with
    rfl | ⟨notNegative, number, accepted⟩
  · exact listening
  · by_cases isListening : fd = listensock
    · rw [isListening]
      exact listening
    · exact ⟨notNegative, small fd (accepts fd number accepted) notNegative isListening⟩

/-! ## A run with one client -/

/-- The server of the run has opened nothing but its socket. -/
def lonely (listensock : Fd) : Kernel where
  socket fd := if fd = listensock then some .listening else none
  accepted := 0

theorem lonely_initial (listensock : Fd) : (lonely listensock).Initial listensock := by
  constructor
  · rfl
  · exact if_pos rfl
  · intro fd different
    exact .inl (if_neg different)

/-- `select` may report anything. -/
def anything : Select := fun _ _ _ _ => True

section OneClient

variable {listensock sock : Fd}

/-- The listening socket is ready in the first round. -/
def asked (listensock : Fd) : State where
  fdArray := Function.update (fun _ => FD_NONE) 0 listensock
  kernel := lonely listensock
  point := .handling 0 {listensock}
  history :=
    [.round fun fd => if fd ∈ ({listensock} : FdSet) then (lonely listensock).socket fd else none]

@[simp] theorem asked_fdArray_zero (listensock : Fd) :
    (asked listensock).fdArray 0 = listensock := by
  simp [asked]

@[simp] theorem asked_fdArray_one (listensock : Fd) :
    (asked listensock).fdArray 1 = FD_NONE := by
  simp [asked]

/-- And `accept` returns `sock`. -/
def welcomed (listensock sock : Fd) : State where
  fdArray := Function.update (asked listensock).fdArray 1 sock
  kernel := (lonely listensock).accept sock
  point := .handling 1 {listensock}
  history := .accepted sock 0 ::
    .accept listensock ((lonely listensock).socket listensock) :: (asked listensock).history

theorem create_reachable (notNegative : 0 ≤ listensock) :
    (machine anything listensock).Reachable (State.create listensock (lonely listensock)) :=
  .start ⟨notNegative, lonely listensock, lonely_initial listensock, rfl⟩

theorem asked_reachable (listening : Fits listensock) :
    (machine anything listensock).Reachable (asked listensock) := by
  obtain ⟨⟨rfds, maxfd⟩, collected⟩ : ∃ result,
      collect (State.create listensock (lonely listensock)).fdArray NUM 0 FD_ZERO listensock =
        some result := by
    apply Option.ne_none_iff_exists'.mp
    rw [Ne, collect_eq_none_iff]
    rintro ⟨j, fd, -, -, atJ, outside⟩
    rcases State.Owned.create listensock (lonely listensock) j fd atJ with
      rfl | ⟨-, number, accepted⟩
    · exact outside listening
    · exact absurd accepted List.not_mem_nil
  have reported : (State.create listensock (lonely listensock)).switch 1 {listensock} =
      asked listensock := by
    rw [State.switch, if_neg (by decide), if_neg (by decide)]
    rfl
  rw [← reported]
  exact (create_reachable listening.1).step (.select rfl collected trivial)

theorem search_first
    {s : State}
    (free : s.fdArray 1 = FD_NONE) :
    search (fun pos => decide (s.fdArray pos = FD_NONE)) (NUM - 1) 1 = 1 := by
  change search _ (1022 + 1) 1 = 1
  rw [search, if_pos (decide_eq_true free)]

/-- `Accepter` finds the second place of the array free. -/
theorem Accepter_asked
    (notNegative : 0 ≤ sock)
    (different : sock ≠ listensock) :
    ((asked listensock).Accepter listensock sock).map
      (State.goto (.handling 1 {listensock})) = some (welcomed listensock sock) := by
  have unused : (asked listensock).kernel.socket sock = none := if_neg different
  have free (event : Event) :
      (((asked listensock).log event).opened sock).fdArray 1 = FD_NONE :=
    asked_fdArray_one listensock
  rw [State.Accepter, if_neg (Int.not_lt.mpr notNegative)]
  refine (congrArg (Option.map _) (if_pos unused)).trans ?_
  dsimp only
  rw [search_first (free _)]
  rfl

theorem welcomed_reachable
    (listening : Fits listensock)
    (notNegative : 0 ≤ sock)
    (different : sock ≠ listensock) :
    (machine anything listensock).Reachable (welcomed listensock sock) := by
  have isSome : listensock ≠ FD_NONE := by
    rintro rfl
    exact absurd listening.1 (by decide)
  have handled : (asked listensock).HandlerEvent listensock 0 {listensock} sock =
      some (welcomed listensock sock) := by
    rw [State.HandlerEvent, asked_fdArray_zero, if_neg isSome, FD_ISSET_of_fits listening,
      decide_eq_true (Finset.mem_singleton_self listensock), if_pos rfl]
    exact Accepter_asked notNegative different
  exact (asked_reachable listening).step (.turn rfl (by decide) handled)

theorem mem_passed_create (notNegative : 0 ≤ listensock) :
    listensock ∈ (State.create listensock (lonely listensock)).passed := by
  refine ⟨0, by decide, slot_eq_some_iff.mpr ⟨asked_fdArray_zero listensock, ?_⟩⟩
  rintro rfl
  exact absurd notNegative (by decide)

theorem mem_passed_welcomed (notNegative : 0 ≤ sock) :
    sock ∈ (welcomed listensock sock).passed := by
  have inArray : (welcomed listensock sock).fdArray 1 = sock := by
    simp [welcomed]
  refine ⟨by decide, slot_eq_some_iff.mpr ⟨inArray, ?_⟩⟩
  rintro rfl
  exact absurd notNegative (by decide)

theorem welcomed_accepts
    {allowed : Set Fd}
    (isAllowed : sock ∈ allowed) :
    (welcomed listensock sock).Accepts allowed := by
  intro fd number accepted
  simp only [welcomed, asked, List.mem_cons, Event.accepted.injEq, reduceCtorEq,
    List.not_mem_nil, or_false] at accepted
  rw [accepted.1]
  exact isAllowed

end OneClient

/-- The server stays within its sets in all runs exactly when its own socket and every
descriptor that `accept` may return is below `NUM`. -/
theorem select_in_range_iff
    (listensock : Fd)
    (allowed : Set Fd)
    (notNegative : 0 ≤ listensock) :
    (∀ select s, (machine select listensock).Reachable s → s.Accepts allowed → s.InRange) ↔
      listensock < NUM ∧
        ∀ fd ∈ allowed, 0 ≤ fd → fd ≠ listensock → fd < NUM := by
  constructor
  · intro always
    have listening : Fits listensock := by
      apply always anything _ (create_reachable notNegative)
      · exact fun fd number accepted => absurd accepted List.not_mem_nil
      · exact mem_passed_create notNegative
    refine ⟨listening.2, ?_⟩
    intro fd isAllowed positive different
    have reached := welcomed_reachable listening positive different
    have fits : Fits fd :=
      always anything _ reached (welcomed_accepts isAllowed) fd (mem_passed_welcomed positive)
    exact fits.2
  · rintro ⟨below, small⟩ select s reached accepts
    exact inRange_of_accepts reached ⟨notNegative, below⟩ small accepts

/-- A process that is limited to 1024 descriptors, with the last of them. -/
theorem select_in_range_limited : (welcomed 3 1023).InRange := by
  have limited : ∀ select s, (machine select 3).Reachable s →
      s.Accepts { fd | fd < 1024 } → s.InRange := by
    apply (select_in_range_iff 3 { fd | fd < 1024 } (by decide)).mpr
    exact ⟨by decide, fun fd isAllowed _ _ => isAllowed⟩
  apply limited anything
  · exact welcomed_reachable ⟨by decide, by decide⟩ (by decide) (by decide)
  · exact welcomed_accepts (by decide : (1023 : Int) < 1024)

/-- With a higher limit the first client may already have a descriptor that is no bit of
the set. -/
theorem select_out_of_range :
    ¬ ∀ select listensock, (machine select listensock).Invariant State.InRange := by
  intro always
  have reached : (machine anything 3).Reachable (welcomed 3 1024) :=
    welcomed_reachable ⟨by decide, by decide⟩ (by decide) (by decide)
  have fits := always anything 3 _ reached 1024 (mem_passed_welcomed (by decide))
  exact absurd fits.2 (by decide)

end SelectServer
end Multiplex
end LearnInLinux
