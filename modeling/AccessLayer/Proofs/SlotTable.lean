import AccessLayer.Proofs.Calls
/-!
The table of open contexts. Contexts live in numbered slots; `add` puts a new one in slot
`next`, the first slot above every live one, and `del` frees a slot, lowering `next` when the
freed slot is the topmost. The table is well formed (`TableWF`) when `next` is at least 1, lies
within the list, and slot 0 and every slot from `next` on are empty. That alone makes `add` safe:
the slot it fills is free, so no live context is ever overwritten.

Each call changes the table in one of three ways (`TableStep`): not at all (`SameTable`), by
one context stored in the free slot `next` (`Added`), or, for `endAction`, by one context
removed (`Removed`). A begin call that fails after storing its context (an entry the backend
refuses to open) frees the slot again, which leaves the same table. From the three kinds of step
follow the well-formedness of every reachable table and the life of an identifier: handed out
free, kept until its context ends, and unknown to every later call until handed out again.
-/

namespace AccessLayer

namespace Session

/-! ## The table and its steps -/

/-- A well-formed table of open contexts. -/
structure TableWF (s : Session) : Prop where
  next_pos : 1 ≤ s.next
  next_le : s.next ≤ s.slots.length
  zero_free : s.slot? 0 = none
  above_free : ∀ i : Nat, s.next ≤ i → s.slot? i = none

/-- Two sessions with the same table: the same contexts in the same slots and the same next
slot. The list behind the table may only grow, by empty slots. -/
structure SameTable (s t : Session) : Prop where
  next_eq : t.next = s.next
  length_le : s.slots.length ≤ t.slots.length
  slot_eq : ∀ id, t.slot? id = s.slot? id

/-- `t` is `s` with the context `sl` stored in the slot `s.next`, which was free. -/
structure Added (s t : Session) (sl : Slot) : Prop where
  free : s.slot? s.next = none
  stored : t.slot? s.next = some sl
  others : ∀ id : Int, id ≠ s.next → t.slot? id = s.slot? id
  next_eq : t.next = s.next + 1
  next_le : t.next ≤ t.slots.length
  length_le : s.slots.length ≤ t.slots.length

/-- `t` is `s` with the context of slot `id` removed; `next` comes down when it was the
topmost. -/
structure Removed (s t : Session) (id : Int) : Prop where
  held : s.slot? id ≠ none
  freed : t.slot? id = none
  others : ∀ j, j ≠ id → t.slot? j = s.slot? j
  length_le : s.slots.length ≤ t.slots.length
  next_eq : t.next = if id.toNat + 1 = s.next then s.next - 1 else s.next

theorem SameTable.refl (s : Session) : SameTable s s := ⟨rfl, Nat.le_refl _, fun _ => rfl⟩

theorem SameTable.trans {s t u : Session} (first : SameTable s t) (second : SameTable t u) :
    SameTable s u :=
  ⟨second.next_eq.trans first.next_eq, Nat.le_trans first.length_le second.length_le,
    fun id => (second.slot_eq id).trans (first.slot_eq id)⟩

/-- A session whose slots and next slot are those of `s` has the table of `s`. -/
theorem SameTable.of_eq {s t : Session} (slots : t.slots = s.slots) (next : t.next = s.next) :
    SameTable s t :=
  ⟨next, Nat.le_of_eq (congrArg List.length slots.symm), fun id => by simp only [slot?, slots]⟩

theorem slot?_natCast (s : Session) (i : Nat) : s.slot? i = (s.slots[i]?).getD none := by
  rw [slot?, if_neg (by omega), Int.toNat_natCast]

theorem slot?_neg (s : Session) {id : Int} (negative : id < 0) : s.slot? id = none := by
  simp [slot?, negative]

/-- A held slot has an identifier that is a natural number. -/
theorem eq_toNat_of_held {s : Session} {id : Int} (held : s.slot? id ≠ none) :
    id = (id.toNat : Int) := by
  by_cases negative : id < 0
  · exact absurd (s.slot?_neg negative) held
  · omega

theorem TableWF.slot_free {s : Session} (wf : s.TableWF) : s.slot? s.next = none :=
  wf.above_free s.next (Nat.le_refl _)

/-- A held slot lies strictly between slot 0 and `next`. -/
theorem TableWF.held_bounds {s : Session} (wf : s.TableWF) {id : Int} (held : s.slot? id ≠ none) :
    1 ≤ id ∧ id < s.next := by
  have natural := eq_toNat_of_held held
  rw [natural] at held
  have nonzero : id.toNat ≠ 0 := fun zero => held (by rw [zero]; exact wf.zero_free)
  have below : id.toNat < s.next :=
    Nat.lt_of_not_le fun above => held (wf.above_free id.toNat above)
  omega

theorem TableWF.of_sameTable {s t : Session} (wf : s.TableWF) (same : SameTable s t) :
    t.TableWF where
  next_pos := same.next_eq ▸ wf.next_pos
  next_le := by rw [same.next_eq]; exact Nat.le_trans wf.next_le same.length_le
  zero_free := by rw [same.slot_eq]; exact wf.zero_free
  above_free i above := by
    rw [same.slot_eq]
    exact wf.above_free i (same.next_eq ▸ above)

theorem TableWF.of_added {s t : Session} {sl : Slot} (wf : s.TableWF) (added : Added s t sl) :
    t.TableWF where
  next_pos := by rw [added.next_eq]; omega
  next_le := added.next_le
  zero_free := by
    rw [added.others (0 : Int) (by have := wf.next_pos; omega)]
    exact wf.zero_free
  above_free i above := by
    rw [added.next_eq] at above
    rw [added.others i (by omega)]
    exact wf.above_free i (by omega)

theorem TableWF.of_removed {s t : Session} {id : Int} (wf : s.TableWF) (removed : Removed s t id) :
    t.TableWF := by
  obtain ⟨one_le, below⟩ := wf.held_bounds removed.held
  have top : id.toNat + 1 = s.next → t.next = s.next - 1 := fun h => by
    rw [removed.next_eq, if_pos h]
  have notTop : id.toNat + 1 ≠ s.next → t.next = s.next := fun h => by
    rw [removed.next_eq, if_neg h]
  have bounds : 1 ≤ t.next ∧ t.next ≤ s.next := by
    by_cases h : id.toNat + 1 = s.next
    · rw [top h]; omega
    · rw [notTop h]; have := wf.next_pos; omega
  refine ⟨bounds.1, ?_, ?_, ?_⟩
  · exact Nat.le_trans bounds.2 (Nat.le_trans wf.next_le removed.length_le)
  · rw [removed.others (0 : Int) (by omega)]; exact wf.zero_free
  · intro i above
    by_cases same : (i : Int) = id
    · rw [same]; exact removed.freed
    · rw [removed.others i same]
      apply wf.above_free i
      by_cases h : id.toNat + 1 = s.next
      · rw [top h] at above; omega
      · rw [notTop h] at above; exact above

/-! ## The primitives -/

theorem run_lookup (id : Int) (s : Session) :
    (lookup id).run s = match s.slot? id with
      | some sl => .ok sl s
      | none => .error (.failure (Failure.noContext id)) s := by
  simp only [lookup, EStateM.run_bind, EStateM.run_get]
  cases s.slot? id <;> rfl

theorem run_add (backend : Nat) (ctx : Context) (s : Session) :
    (add backend ctx).run s = .ok (s.next : Int) { s with
      slots := if s.next = s.slots.length then s.slots ++ [some ⟨backend, ctx⟩]
        else s.slots.set s.next (some ⟨backend, ctx⟩)
      next := s.next + 1 } := rfl

theorem run_del (id : Int) (s : Session) :
    (del id).run s = match s.slot? id with
      | some sl => .ok sl { s with
          slots := s.slots.set id.toNat none
          next := if id.toNat + 1 = s.next then s.next - 1 else s.next }
      | none => .error (.failure (Failure.noContext id)) s := by
  simp only [del, EStateM.run_bind, run_lookup]
  cases s.slot? id <;> rfl

/-- The table with the entry of slot `k` replaced. -/
theorem slot?_set_slots (s : Session) {k : Nat} (v : Option Slot) (within : k < s.slots.length)
    (n : Nat) (j : Int) :
    ({ s with slots := s.slots.set k v, next := n } : Session).slot? j =
      if j = k then v else s.slot? j := by
  by_cases negative : j < 0
  · have differs : j ≠ k := by omega
    simp [slot?, negative, differs]
  · simp only [slot?, negative, if_false]
    by_cases same : j = k
    · subst same
      simp [List.getElem?_set_self within]
    · have differs : k ≠ j.toNat := by omega
      simp [same, List.getElem?_set_ne differs]

/-- The table with one more slot at the end of its list. -/
theorem slot?_append_slots (s : Session) (v : Option Slot) (n : Nat) (j : Int) :
    ({ s with slots := s.slots ++ [v], next := n } : Session).slot? j =
      if j = s.slots.length then v else s.slot? j := by
  by_cases negative : j < 0
  · have differs : j ≠ s.slots.length := by omega
    simp [slot?, negative, differs]
  · simp only [slot?, negative, if_false]
    by_cases same : j = s.slots.length
    · simp [same]
    · by_cases inside : j.toNat < s.slots.length
      · simp [same, List.getElem?_append_left inside]
      · have past : s.slots.length < j.toNat := by omega
        simp [same, List.getElem?_eq_none (by omega : s.slots.length ≤ j.toNat),
          List.getElem?_append_right (by omega : s.slots.length ≤ j.toNat),
          show j.toNat - s.slots.length ≠ 0 by omega]

/-- `add` stores its context in the free slot `next`. -/
theorem added_of_add {s : Session} (wf : s.TableWF) (backend : Nat) (ctx : Context) :
    Added s ((add backend ctx).run s).state ⟨backend, ctx⟩ := by
  rw [run_add]
  have within := wf.next_le
  by_cases atEnd : s.next = s.slots.length
  · rw [if_pos atEnd, EStateM.Result.state_ok]
    refine ⟨wf.slot_free, ?_, fun id other => ?_, rfl, by simp [atEnd], by simp⟩
    · rw [slot?_append_slots, atEnd, if_pos rfl]
    · rw [slot?_append_slots, if_neg (by rw [← atEnd]; exact other)]
  · have inside : s.next < s.slots.length := by omega
    rw [if_neg atEnd, EStateM.Result.state_ok]
    refine ⟨wf.slot_free, ?_, fun id other => ?_, rfl, by simp; omega, by simp⟩
    · rw [slot?_set_slots s _ inside, if_pos rfl]
    · rw [slot?_set_slots s _ inside, if_neg other]

/-- `del` of a held slot removes its context and nothing else. -/
theorem removed_of_del {s : Session} {id : Int} {sl : Slot} (held : s.slot? id = some sl) :
    ∃ t, (del id).run s = .ok sl t ∧ Removed s t id := by
  have natural := eq_toNat_of_held (show s.slot? id ≠ none by simp [held])
  have inside : id.toNat < s.slots.length := Nat.lt_of_not_le fun outside => by
    simp [slot?, show ¬id < 0 by omega, List.getElem?_eq_none outside] at held
  rw [run_del, held]
  refine ⟨_, rfl, by simp [held], ?_, fun j other => ?_, by simp, rfl⟩
  · rw [slot?_set_slots s _ inside, if_pos natural]
  · rw [slot?_set_slots s _ inside, if_neg (by rw [← natural]; exact other)]

theorem Added.of_sameTable_left {s t u : Session} {sl : Slot} (same : SameTable s t)
    (added : Added t u sl) : Added s u sl where
  free := by rw [← same.next_eq, ← same.slot_eq]; exact added.free
  stored := by rw [← same.next_eq]; exact added.stored
  others id other := by
    rw [← same.slot_eq]; exact added.others id (by rw [same.next_eq]; exact other)
  next_eq := by rw [← same.next_eq]; exact added.next_eq
  next_le := added.next_le
  length_le := Nat.le_trans same.length_le added.length_le

theorem Added.of_sameTable_right {s t u : Session} {sl : Slot} (added : Added s t sl)
    (same : SameTable t u) : Added s u sl where
  free := added.free
  stored := by rw [same.slot_eq]; exact added.stored
  others id other := by rw [same.slot_eq]; exact added.others id other
  next_eq := by rw [same.next_eq]; exact added.next_eq
  next_le := by rw [same.next_eq]; exact Nat.le_trans added.next_le same.length_le
  length_le := Nat.le_trans added.length_le same.length_le

/-- Freeing the slot just filled gives the table back. -/
theorem SameTable.of_added_removed {s t u : Session} {sl : Slot} (added : Added s t sl)
    (removed : Removed t u s.next) : SameTable s u where
  next_eq := by
    rw [removed.next_eq, added.next_eq]
    simp
  length_le := Nat.le_trans added.length_le removed.length_le
  slot_eq id := by
    by_cases same : id = s.next
    · rw [same, removed.freed, added.free]
    · rw [removed.others id same, added.others id same]

/-! ## Calls that keep the table -/

/-- Running `m` from `s` leaves the table of `s`, whether `m` answers or fails. -/
def KeepsFrom {α : Type} (s : Session) (m : SessionM α) : Prop := SameTable s (m.run s).state

/-- A call that keeps the table of every session it runs from. -/
def KeepsTable {α : Type} (m : SessionM α) : Prop := ∀ s, KeepsFrom s m

theorem KeepsFrom.bind {α β : Type} {s : Session} {m : SessionM α} {f : α → SessionM β}
    (first : KeepsFrom s m) (rest : ∀ a t, m.run s = .ok a t → KeepsFrom t (f a)) :
    KeepsFrom s (m >>= f) := by
  unfold KeepsFrom at *
  rw [EStateM.run_bind]
  cases ran : m.run s with
  | ok a t => rw [ran] at first; exact first.trans (rest a t ran)
  | error e t => rw [ran] at first; exact first

/-- A call that keeps the table and answers leaves a session with the same table. -/
theorem KeepsFrom.of_ok {α : Type} {s t : Session} {m : SessionM α} {a : α}
    (keeps : KeepsFrom s m) (ran : m.run s = .ok a t) : SameTable s t := by
  unfold KeepsFrom at keeps
  rw [ran] at keeps
  exact keeps

theorem KeepsTable.bind {α β : Type} {m : SessionM α} {f : α → SessionM β}
    (first : KeepsTable m) (rest : ∀ a, KeepsTable (f a)) : KeepsTable (m >>= f) :=
  fun s => (first s).bind fun a t _ => rest a t

theorem keeps_pure {α : Type} (a : α) : KeepsTable (pure a : SessionM α) :=
  fun s => SameTable.refl s

theorem keeps_get : KeepsTable (get : SessionM Session) := fun s => SameTable.refl s

theorem keeps_raise {α : Type} (f : Failure) : KeepsTable (Failure.raise f : SessionM α) :=
  fun s => SameTable.refl s

theorem keeps_throw {α : Type} (e : Fault) : KeepsTable (throw e : SessionM α) :=
  fun s => SameTable.refl s

theorem keeps_toCall {α : Type} (r : Except Failure α) : KeepsTable (Except.toCall r : SessionM α) := by
  intro s
  cases r <;> exact SameTable.refl s

theorem keeps_modify {f : Session → Session} (slots : ∀ s, (f s).slots = s.slots)
    (next : ∀ s, (f s).next = s.next) : KeepsTable (modify f) :=
  fun s => SameTable.of_eq (slots s) (next s)

theorem keeps_note (level : LogLevel) (message : String) : KeepsTable (note level message) :=
  keeps_modify (fun _ => rfl) (fun _ => rfl)

theorem keeps_onBackend {α : Type} (i : Nat) (call : BackendCall α) :
    KeepsTable (onBackend i call) := by
  intro s
  unfold KeepsFrom
  simp only [onBackend, EStateM.run]
  split <;> exact SameTable.of_eq rfl rfl

theorem keeps_lookup (id : Int) : KeepsTable (lookup id) := by
  intro s
  unfold KeepsFrom
  rw [run_lookup]
  cases s.slot? id <;> exact SameTable.refl s

theorem keeps_entryOf (id : Int) : KeepsTable (entryOf id) := by
  unfold entryOf
  refine (keeps_lookup id).bind fun sl => ?_
  split
  · exact keeps_pure _
  · exact keeps_raise _

theorem keeps_operation (build : Nat → Except OperationError Operation) :
    KeepsTable (operation build) := by
  intro s
  unfold KeepsFrom operation
  simp only [EStateM.run_bind, EStateM.run_get]
  split <;> simp [SameTable.of_eq]

theorem keeps_closePulse (id : Int) (mode : CloseMode) : KeepsTable (closePulse id mode) := by
  unfold closePulse
  exact (keeps_entryOf id).bind fun _ => (keeps_note _ _).bind fun _ => keeps_onBackend _ _

theorem keeps_iterate (id step : Int) : KeepsTable (iterate id step) := by
  unfold iterate
  refine (keeps_lookup id).bind fun sl => ?_
  split
  · exact keeps_modify (fun _ => rfl) (fun _ => rfl)
  · exact keeps_raise _

theorem keeps_writeData (id : Int) (field timebase : String) (data : Buffer) :
    KeepsTable (writeData id field timebase data) := by
  unfold writeData
  split
  · exact keeps_pure _
  · exact (keeps_lookup id).bind fun _ => keeps_get.bind fun _ => keeps_onBackend _ _

theorem keeps_readData (id : Int) (field timebase : String) (dt : DataType) (dim : Int) :
    KeepsTable (readData id field timebase dt dim) := by
  unfold readData
  refine (keeps_lookup id).bind fun _ => keeps_get.bind fun _ =>
    (keeps_onBackend _ _).bind fun found => ?_
  cases found with
  | none => exact keeps_toCall _
  | some data =>
    dsimp only
    split
    · exact keeps_raise _
    · split
      · exact (keeps_note _ _).bind fun _ => keeps_toCall _
      · exact keeps_pure _

theorem keeps_deleteData (id : Int) (path : String) : KeepsTable (deleteData id path) := by
  unfold deleteData
  refine (keeps_lookup id).bind fun sl => ?_
  split
  · exact keeps_onBackend _ _
  · exact keeps_raise _

theorem keeps_occurrences (id : Int) (name : String) : KeepsTable (occurrences id name) := by
  unfold occurrences
  exact (keeps_entryOf id).bind fun _ => keeps_onBackend _ _

theorem keeps_contextInfo (id : Int) (pointer : Nat → String) :
    KeepsTable (contextInfo id pointer) := by
  unfold contextInfo
  split
  · exact keeps_pure _
  · exact (keeps_lookup id).bind fun _ => keeps_get.bind fun _ => keeps_pure _

theorem keeps_backendId (id : Int) : KeepsTable (backendId id) := by
  unfold backendId
  exact (keeps_lookup id).bind fun _ => keeps_pure _

/-! ## Calls that store one context -/

/-- What a begin call may do from `s`: fail leaving the table, or answer `s.next` after storing
one context there, or — a call that `mayDecline` — answer identifier 0 leaving the table.
`answer` reads the identifier off what the call answers. -/
def StoresFrom {α : Type} (answer : α → Int) (mayDecline : Bool) (s : Session) (m : SessionM α) :
    Prop :=
  match m.run s with
  | .ok a t => (mayDecline = true ∧ answer a = 0 ∧ SameTable s t) ∨
      (answer a = s.next ∧ ∃ sl, Added s t sl)
  | .error _ t => SameTable s t

theorem StoresFrom.keeps_bind {α β : Type} {answer : β → Int} {mayDecline : Bool} {s : Session}
    {m : SessionM α} {f : α → SessionM β} (first : KeepsFrom s m)
    (rest : ∀ a t, m.run s = .ok a t → StoresFrom answer mayDecline t (f a)) :
    StoresFrom answer mayDecline s (m >>= f) := by
  unfold StoresFrom KeepsFrom at *
  rw [EStateM.run_bind]
  cases ran : m.run s with
  | error e t => rw [ran] at first; exact first
  | ok a t =>
    rw [ran] at first
    have later := rest a t ran
    simp only [EStateM.Result.state_ok] at first
    dsimp only
    revert later
    cases (f a).run t with
    | ok b u =>
      rintro (⟨declines, zero, same⟩ | ⟨answered, sl, added⟩)
      · exact .inl ⟨declines, zero, first.trans same⟩
      · exact .inr ⟨answered.trans (by rw [first.next_eq]), sl, added.of_sameTable_left first⟩
    | error e u => exact first.trans

/-- A begin call seen from every well-formed table. -/
def Stores {α : Type} (answer : α → Int) (mayDecline : Bool) (m : SessionM α) : Prop :=
  ∀ s, s.TableWF → StoresFrom answer mayDecline s m

theorem Stores.keeps_bind {α β : Type} {answer : β → Int} {mayDecline : Bool} {m : SessionM α}
    {f : α → SessionM β} (first : KeepsTable m) (rest : ∀ a, Stores answer mayDecline (f a)) :
    Stores answer mayDecline (m >>= f) := fun s wf =>
  StoresFrom.keeps_bind (first s) fun a _ ran =>
    rest a _ (wf.of_sameTable ((first s).of_ok ran))

/-- Storing a context and then only writing to the journal stores one context. -/
theorem stores_add_note {α : Type} (answer : α → Int) (mayDecline : Bool) (backend : Nat)
    (ctx : Context) (message : Int → String) (result : Int → α) (reads : ∀ id, answer (result id) = id) :
    Stores answer mayDecline
      (add backend ctx >>= fun id => note .debug (message id) >>= fun _ => pure (result id)) := by
  intro s wf
  have added := added_of_add wf backend ctx
  rw [run_add, EStateM.Result.state_ok] at added
  unfold StoresFrom
  simp only [EStateM.run_bind, run_add, note, EStateM.run_modify, EStateM.run_pure]
  exact .inr ⟨reads _, _, added.of_sameTable_right (SameTable.of_eq rfl rfl)⟩

theorem stores_beginOperation (sl : Slot) (op : Operation) :
    Stores id false (beginOperation sl op) := by
  unfold beginOperation
  exact Stores.keeps_bind (keeps_onBackend _ _) fun _ =>
    stores_add_note id false _ _ _ id fun _ => rfl

theorem stores_beginGlobal (parent : Int) (name datapath : String) (access : AccessMode) :
    Stores id false (beginGlobal parent name datapath access) := by
  unfold beginGlobal
  exact Stores.keeps_bind (keeps_entryOf parent) fun (sl, _) =>
    Stores.keeps_bind (keeps_operation _) fun op => stores_beginOperation sl op

theorem stores_beginSlice (parent : Int) (name : String) (access : AccessMode) (time : Float)
    (interp : InterpMode) : Stores id false (beginSlice parent name access time interp) := by
  unfold beginSlice
  exact Stores.keeps_bind (keeps_entryOf parent) fun (sl, _) =>
    Stores.keeps_bind (keeps_operation _) fun op => stores_beginOperation sl op

theorem stores_beginTimeRange (parent : Int) (name : String) (access : AccessMode)
    (tmin tmax : Float) (dtime : List Float) (interp : InterpMode) :
    Stores id false (beginTimeRange parent name access tmin tmax dtime interp) := by
  unfold beginTimeRange
  refine Stores.keeps_bind (keeps_lookup parent) fun sl => Stores.keeps_bind keeps_get fun _ => ?_
  have finish : ∀ de, Stores id false (operation (fun uid => Operation.timeRange de uid (normalizeName name)
      access tmin tmax dtime interp) >>= beginOperation sl) := fun _ =>
    Stores.keeps_bind (keeps_operation _) (stores_beginOperation sl)
  dsimp only
  split
  · refine Stores.keeps_bind (keeps_raise _) fun _ => ?_
    split
    · exact Stores.keeps_bind (keeps_pure _) finish
    · exact Stores.keeps_bind (keeps_raise _) finish
  · split
    · exact Stores.keeps_bind (keeps_pure _) finish
    · exact Stores.keeps_bind (keeps_raise _) finish

/-- Storing a context, then opening it on a backend, and freeing its slot again when the
backend refuses, stores one context or leaves the table. -/
theorem stores_add_open (backend : Nat) (ctx : Context) (i : Nat) (call : BackendCall Unit)
    (message : Int → String) :
    Stores id false (add backend ctx >>= fun id =>
      tryCatch (onBackend i call) (fun e => del id >>= fun _ => throw e) >>= fun _ =>
        note .debug (message id) >>= fun _ => pure id) := by
  intro s wf
  have added := added_of_add wf backend ctx
  obtain ⟨t, stored⟩ : ∃ t, (add backend ctx).run s = .ok (s.next : Int) t := ⟨_, run_add _ _ _⟩
  unfold StoresFrom
  rw [stored, EStateM.Result.state_ok] at added
  rw [EStateM.run_bind, stored]
  dsimp only
  rw [EStateM.run_bind, EStateM.run_tryCatch]
  have opened := keeps_onBackend i call t
  unfold KeepsFrom at opened
  cases ran : (onBackend i call).run t with
  | ok _ u =>
    rw [ran, EStateM.Result.state_ok] at opened
    simp only [EStateM.run_bind, note, EStateM.run_modify, EStateM.run_pure]
    exact .inr ⟨rfl, _, (added.of_sameTable_right opened).of_sameTable_right (SameTable.of_eq rfl rfl)⟩
  | error _ u =>
    rw [ran, EStateM.Result.state_error] at opened
    have reopened := added.of_sameTable_right opened
    obtain ⟨v, freed, removed⟩ := removed_of_del reopened.stored
    simp only [restore_save, EStateM.run_bind, freed, EStateM.run_throw]
    exact SameTable.of_added_removed reopened removed

theorem stores_beginDataEntry (uri : String) (mode : OpenMode) :
    Stores id false (beginDataEntry uri mode) := by
  intro s wf
  unfold beginDataEntry
  refine StoresFrom.keeps_bind (keeps_get s) fun _ _ ran => ?_
  cases ran
  dsimp only
  split
  · refine StoresFrom.keeps_bind (keeps_pure _ s) fun _ _ ran => ?_
    cases ran
    refine StoresFrom.keeps_bind (SameTable.of_eq rfl rfl) fun _ t ran => ?_
    have same : SameTable s t := by cases ran; exact SameTable.of_eq rfl rfl
    refine Stores.keeps_bind (keeps_toCall _) ?_ t (wf.of_sameTable same)
    intro _
    refine Stores.keeps_bind (keeps_note _ _) fun _ => Stores.keeps_bind keeps_get fun _ => ?_
    refine Stores.keeps_bind (keeps_modify (fun _ => rfl) (fun _ => rfl)) fun _ => ?_
    exact stores_add_open _ _ _ _ _
  · exact StoresFrom.keeps_bind (keeps_raise _ s) fun _ _ ran => nomatch ran

/-- Every answer of `m` satisfies `p`. -/
def Answers {α : Type} (p : α → Prop) (m : SessionM α) : Prop :=
  ∀ s a t, m.run s = .ok a t → p a

theorem Answers.bind {α β : Type} {p : β → Prop} {m : SessionM α} {f : α → SessionM β}
    (rest : ∀ a, Answers p (f a)) : Answers p (m >>= f) := by
  intro s b u ran
  rw [EStateM.run_bind] at ran
  cases first : m.run s with
  | ok a t => rw [first] at ran; exact rest a t b u ran
  | error e t => rw [first] at ran; cases ran

theorem answers_pure {α : Type} {p : α → Prop} {a : α} (holds : p a) :
    Answers p (pure a : SessionM α) := by
  intro s b t ran
  cases ran
  exact holds

/-- A call that keeps the table and answers identifier 0 declines to store. -/
theorem Stores.of_declines {α : Type} {answer : α → Int} {m : SessionM α} (keeps : KeepsTable m)
    (zero : Answers (fun a => answer a = 0) m) : Stores answer true m := by
  intro s _
  have same := keeps s
  unfold StoresFrom
  unfold KeepsFrom at same
  cases ran : m.run s with
  | ok a t => rw [ran] at same; exact .inl ⟨rfl, zero s a t ran, same⟩
  | error e t => rw [ran] at same; exact same

theorem stores_beginArray (parent : Int) (path timebase : String) (size : Int) :
    Stores Prod.fst true (beginArray parent path timebase size) := by
  intro s wf
  unfold beginArray
  refine StoresFrom.keeps_bind (keeps_lookup parent s) fun sl t ran => ?_
  have wfT : t.TableWF := wf.of_sameTable ((keeps_lookup parent s).of_ok ran)
  refine StoresFrom.keeps_bind (keeps_get t) fun _ _ got => ?_
  cases got
  dsimp only
  split
  case h_3 => exact StoresFrom.keeps_bind (keeps_raise _ t) fun _ _ ran => nomatch ran
  all_goals
    refine StoresFrom.keeps_bind (keeps_pure _ t) fun _ _ ran => ?_
    cases ran
    refine StoresFrom.keeps_bind (SameTable.of_eq rfl rfl) fun _ u ran => ?_
    have same : SameTable t u := by cases ran; exact SameTable.of_eq rfl rfl
    refine Stores.keeps_bind (keeps_onBackend _ _) ?_ u (wfT.of_sameTable same)
    intro n
    split
    · -- an empty array is ended at once and answers identifier 0
      refine Stores.of_declines ((keeps_onBackend _ _).bind fun _ => ?_)
        (Answers.bind fun _ => ?_)
      · split
        · exact (keeps_raise _).bind fun _ => keeps_pure _
        · exact keeps_pure _
      · split
        · exact Answers.bind fun _ => answers_pure rfl
        · exact answers_pure rfl
    · exact stores_add_note Prod.fst true _ _ _ (fun aid => (aid, n)) fun _ => rfl

theorem Removed.of_sameTable_right {s t u : Session} {id : Int} (removed : Removed s t id)
    (same : SameTable t u) : Removed s u id where
  held := removed.held
  freed := by rw [same.slot_eq]; exact removed.freed
  others j other := by rw [same.slot_eq]; exact removed.others j other
  length_le := Nat.le_trans removed.length_le same.length_le
  next_eq := by rw [same.next_eq]; exact removed.next_eq

/-! ## Ending a context -/

/-- Ending a held context removes it from the table, whatever its backend then answers. -/
theorem endAction_removes {s : Session} {id : Int} {sl : Slot} (nonzero : id ≠ 0)
    (held : s.slot? id = some sl) : Removed s ((endAction id).run s).state id := by
  obtain ⟨t, freed, removed⟩ := removed_of_del held
  unfold endAction
  rw [if_neg nonzero, EStateM.run_bind, freed]
  dsimp only
  have rest := ((keeps_note LogLevel.debug ("end " ++ Context.kindName sl.context.kindCode ++ " " ++
    toString id)).bind fun _ => keeps_get.bind fun u =>
      keeps_onBackend sl.backend (Backend.endAction (u.live sl.context))) t
  unfold KeepsFrom at rest
  rw [EStateM.run_bind] at rest ⊢
  exact removed.of_sameTable_right rest

/-- A call on an identifier that holds no context fails at its first look at the table. -/
theorem run_lookup_bind_free {α : Type} {s : Session} {id : Int} {f : Slot → SessionM α}
    (free : s.slot? id = none) :
    (lookup id >>= f).run s = .error (.failure (Failure.noContext id)) s := by
  rw [EStateM.run_bind, run_lookup, free]

theorem run_entryOf_bind_free {α : Type} {s : Session} {id : Int} {f : Slot × DataEntry → SessionM α}
    (free : s.slot? id = none) :
    (entryOf id >>= f).run s = .error (.failure (Failure.noContext id)) s := by
  rw [EStateM.run_bind, entryOf, run_lookup_bind_free free]

theorem run_del_bind_free {α : Type} {s : Session} {id : Int} {f : Slot → SessionM α}
    (free : s.slot? id = none) :
    (del id >>= f).run s = .error (.failure (Failure.noContext id)) s := by
  rw [EStateM.run_bind, run_del, free]

theorem run_map_of_error {α β : Type} {f : α → β} {m : SessionM α} {s t : Session} {e : Fault}
    (fails : m.run s = .error e t) : (f <$> m).run s = .error e t := by
  rw [EStateM.run_map, fails, EStateM.Result.map_error]

/-- Every call that names an identifier holding no context fails on it and changes nothing, but
ending or describing identifier 0, which is never a context, and writing data without values,
which is accepted before the identifier is looked at. -/
theorem perform_of_free {s : Session} {c : Call} {id : Int} (target : c.target = some id)
    (nonzero : id ≠ 0) (free : s.slot? id = none) (values : c.writesNoValues = false) :
    c.perform.run s = .error (.failure (Failure.noContext id)) s := by
  cases c with
  | beginDataEntry => cases target
  | closePulse j mode =>
    cases target
    exact run_map_of_error (run_entryOf_bind_free free)
  | beginGlobal j name datapath access =>
    cases target
    exact run_map_of_error (run_entryOf_bind_free free)
  | beginSlice j name access time interp =>
    cases target
    exact run_map_of_error (run_entryOf_bind_free free)
  | beginTimeRange j name access tmin tmax dtime interp =>
    cases target
    exact run_map_of_error (run_lookup_bind_free free)
  | beginArray j path timebase size =>
    cases target
    exact run_map_of_error (run_lookup_bind_free free)
  | iterate j step =>
    cases target
    exact run_map_of_error (run_lookup_bind_free free)
  | endAction j =>
    cases target
    refine run_map_of_error ?_
    unfold Session.endAction
    rw [if_neg nonzero]
    exact run_del_bind_free free
  | writeData j field timebase data =>
    cases target
    refine run_map_of_error ?_
    unfold Session.writeData
    rw [if_neg (by simpa [Call.writesNoValues] using values)]
    exact run_lookup_bind_free free
  | readData j field timebase dt dim =>
    cases target
    exact run_map_of_error (run_lookup_bind_free free)
  | deleteData j path =>
    cases target
    exact run_map_of_error (run_lookup_bind_free free)
  | occurrences j name =>
    cases target
    exact run_map_of_error (run_entryOf_bind_free free)
  | contextInfo j pointer =>
    cases target
    refine run_map_of_error ?_
    unfold Session.contextInfo
    rw [if_neg nonzero]
    exact run_lookup_bind_free free
  | backendId j =>
    cases target
    exact run_map_of_error (run_lookup_bind_free free)

/-! ## What one call does -/

/-- What one call `c` from `s` does to the table, read off its result `r`. -/
inductive TableStep (c : Call) (s : Session) (r : EStateM.Result Fault Session (Option Int)) :
    Prop
  /-- The table is left as it was and no identifier is handed out. -/
  | keeps : SameTable s r.state → r.answer = none → TableStep c s r
  /-- An empty array: nothing is stored and identifier 0 is answered. -/
  | declines : c.opensArray = true → SameTable s r.state → r.answer = some 0 → TableStep c s r
  /-- A begin call stores its context in the free slot `next` and answers that identifier. -/
  | stores {sl : Slot} : Added s r.state sl → r.answer = some (s.next : Int) → TableStep c s r
  /-- Ending the context of slot `id` removes it, whatever its backend then answers. -/
  | ends {id : Int} : c = .endAction id → Removed s r.state id → r.answer = none →
      TableStep c s r

theorem tableStep_of_keeps {c : Call} {α : Type} {m : SessionM α} (keeps : KeepsTable m)
    (s : Session) : TableStep c s (((fun _ => none) <$> m).run s) := by
  have same := keeps s
  unfold KeepsFrom at same
  rw [EStateM.run_map]
  cases ran : m.run s <;> rw [ran] at same <;> exact .keeps same rfl

theorem tableStep_of_stores {c : Call} {α : Type} {answer : α → Int} {mayDecline : Bool}
    {m : SessionM α} (stores : Stores answer mayDecline m)
    (arrays : mayDecline = true → c.opensArray = true) {s : Session} (wf : s.TableWF) :
    TableStep c s (((fun a => some (answer a)) <$> m).run s) := by
  have step := stores s wf
  unfold StoresFrom at step
  rw [EStateM.run_map]
  cases ran : m.run s with
  | error e t => rw [ran] at step; exact .keeps step rfl
  | ok a t =>
    rw [ran] at step
    rcases step with ⟨declines, zero, same⟩ | ⟨answered, sl, added⟩
    · exact .declines (arrays declines) same (by simp [zero])
    · exact .stores added (by simp [answered])

/-- Ending a context, by the three kinds of identifier: 0, free and held. -/
theorem tableStep_endAction (s : Session) (id : Int) :
    TableStep (.endAction id) s ((Call.endAction id).perform.run s) := by
  by_cases zero : id = 0
  · subst zero
    refine tableStep_of_keeps ?_ s
    unfold Session.endAction
    exact keeps_pure _
  cases held : s.slot? id with
  | none =>
    rw [perform_of_free rfl zero held rfl]
    exact .keeps (SameTable.refl s) rfl
  | some sl =>
    have removed := endAction_removes zero held
    unfold Call.perform
    rw [EStateM.run_map]
    revert removed
    cases (Session.endAction id).run s with
    | ok _ t => exact fun removed => .ends rfl removed rfl
    | error _ t => exact fun removed => .ends rfl removed rfl

/-- Every call from a well-formed table takes one of the steps of `TableStep`. -/
theorem tableStep_perform {s : Session} (wf : s.TableWF) (c : Call) :
    TableStep c s (c.perform.run s) := by
  cases c with
  | beginDataEntry uri mode =>
    exact tableStep_of_stores (stores_beginDataEntry uri mode) (fun declines => nomatch declines) wf
  | closePulse id mode => exact tableStep_of_keeps (keeps_closePulse id mode) s
  | beginGlobal id name datapath access =>
    exact tableStep_of_stores (stores_beginGlobal id name datapath access)
      (fun declines => nomatch declines) wf
  | beginSlice id name access time interp =>
    exact tableStep_of_stores (stores_beginSlice id name access time interp)
      (fun declines => nomatch declines) wf
  | beginTimeRange id name access tmin tmax dtime interp =>
    exact tableStep_of_stores (stores_beginTimeRange id name access tmin tmax dtime interp)
      (fun declines => nomatch declines) wf
  | beginArray id path timebase size =>
    exact tableStep_of_stores (stores_beginArray id path timebase size) (fun _ => rfl) wf
  | iterate id step => exact tableStep_of_keeps (keeps_iterate id step) s
  | endAction id => exact tableStep_endAction s id
  | writeData id field timebase data =>
    exact tableStep_of_keeps (keeps_writeData id field timebase data) s
  | readData id field timebase dt dim =>
    exact tableStep_of_keeps (keeps_readData id field timebase dt dim) s
  | deleteData id path => exact tableStep_of_keeps (keeps_deleteData id path) s
  | occurrences id name => exact tableStep_of_keeps (keeps_occurrences id name) s
  | contextInfo id pointer => exact tableStep_of_keeps (keeps_contextInfo id pointer) s
  | backendId id => exact tableStep_of_keeps (keeps_backendId id) s

/-- After a call ends an identifier its slot is free: it held no context, or the call removed
it. -/
theorem endAction_frees {s : Session} (wf : s.TableWF) (id : Int) :
    ((Call.endAction id).perform.run s).state.slot? id = none := by
  unfold Call.perform
  rw [state_run_map]
  by_cases zero : id = 0
  · unfold Session.endAction
    rw [if_pos zero, zero]
    exact wf.zero_free
  cases held : s.slot? id with
  | none =>
    unfold Session.endAction
    rw [if_neg zero, run_del_bind_free held]
    exact held
  | some sl => exact (endAction_removes zero held).freed

/-! ## Every reachable table -/

theorem TableStep.tableWF {c : Call} {s : Session} {r : EStateM.Result Fault Session (Option Int)}
    (wf : s.TableWF) (step : TableStep c s r) : r.state.TableWF := by
  cases step with
  | keeps same _ => exact wf.of_sameTable same
  | declines _ same _ => exact wf.of_sameTable same
  | stores added _ => exact wf.of_added added
  | ends _ removed _ => exact wf.of_removed removed

theorem tableWF_fresh (s : Session) : ({ s with slots := [none], next := 1 } : Session).TableWF where
  next_pos := Nat.le_refl 1
  next_le := Nat.le_refl 1
  zero_free := rfl
  above_free i above := by
    rw [slot?_natCast]
    match i, above with
    | n + 1, _ => rfl

/-- Every table a sequence of calls leads to is well formed. -/
theorem Reachable.tableWF {s : Session} (reach : Reachable s) : s.TableWF := by
  induction reach with
  | fresh s => exact tableWF_fresh s
  | step c _ wf => exact (tableStep_perform wf c).tableWF wf

section Step

variable {c : Call} {s : Session} {r : EStateM.Result Fault Session (Option Int)}

/-- A held slot keeps its context through every step but the end of that context. -/
theorem TableStep.held_kept (step : TableStep c s r) {id : Int} {sl : Slot}
    (held : s.slot? id = some sl) (notEnded : c ≠ .endAction id) : r.state.slot? id = some sl := by
  cases step with
  | keeps same _ => rw [same.slot_eq]; exact held
  | declines _ same _ => rw [same.slot_eq]; exact held
  | stores added _ =>
    have other : id ≠ s.next := fun atNext => by rw [atNext, added.free] at held; cases held
    rw [added.others id other]; exact held
  | @ends j ended removed _ =>
    have other : id ≠ j := fun same => notEnded (by rw [ended, same])
    rw [removed.others id other]; exact held

/-- A free slot stays free through every step but the one that hands out its identifier. -/
theorem TableStep.free_kept (step : TableStep c s r) {id : Int} (free : s.slot? id = none) :
    r.state.slot? id = none ∨ r.answer = some id := by
  cases step with
  | keeps same _ => left; rw [same.slot_eq]; exact free
  | declines _ same _ => left; rw [same.slot_eq]; exact free
  | stores added answered =>
    by_cases issued : id = s.next
    · right; rw [issued]; exact answered
    · left; rw [added.others id issued]; exact free
  | @ends j _ removed _ =>
    left
    by_cases ended : id = j
    · rw [ended]; exact removed.freed
    · rw [removed.others id ended]; exact free

/-- An identifier a step hands out is 0 for an empty array, which stores nothing, or else at
least 1, free before the step and holding the new context after it, with every other slot as it
was. -/
theorem TableStep.answer_fresh (wf : s.TableWF) (step : TableStep c s r) {id : Int}
    (answered : r.answer = some id) :
    (id = 0 ∧ c.opensArray = true ∧ SameTable s r.state) ∨
    (1 ≤ id ∧ s.slot? id = none ∧ (∃ sl, r.state.slot? id = some sl) ∧
      ∀ j, j ≠ id → r.state.slot? j = s.slot? j) := by
  cases step with
  | keeps _ none => rw [none] at answered; cases answered
  | declines arrays same zero =>
    rw [zero] at answered
    cases answered
    exact .inl ⟨rfl, arrays, same⟩
  | stores added next =>
    rw [next] at answered
    cases answered
    have positive := wf.next_pos
    exact .inr ⟨by omega, added.free, ⟨_, added.stored⟩, added.others⟩
  | ends _ _ none => rw [none] at answered; cases answered

end Step

/-! ## The life of an identifier -/

/-- The life of a context identifier, over every sequence of calls each answering or failing:
slot 0 never holds a context; an identifier a call hands out is 0 for an empty array, which
stores nothing, or else at least 1 and held by no live context; a held identifier keeps its
context and backend until it is ended; once ended its slot is free, every call on it fails with
the store's message (but writing data without values, which is accepted before any look at the
identifier), and it stays free until it is handed out again. -/
theorem context_table_discipline {s : Session} (reach : Reachable s) (c : Call) :
    s.slot? 0 = none ∧
    (∀ id, (c.perform.run s).answer = some id →
      (id = 0 ∧ c.opensArray = true ∧ SameTable s (c.perform.run s).state) ∨
      (1 ≤ id ∧ s.slot? id = none ∧ (∃ sl, (c.perform.run s).state.slot? id = some sl) ∧
        ∀ j, j ≠ id → (c.perform.run s).state.slot? j = s.slot? j)) ∧
    (∀ id sl, s.slot? id = some sl → c ≠ .endAction id →
      (c.perform.run s).state.slot? id = some sl) ∧
    (∀ id, c = .endAction id → (c.perform.run s).state.slot? id = none) ∧
    (∀ id, c.target = some id → id ≠ 0 → s.slot? id = none → c.writesNoValues = false →
      c.perform.run s =
        .error (.failure (.lowlevel ("Cannot find context " ++ toString id ++ " in store"))) s) ∧
    (∀ id, s.slot? id = none →
      (c.perform.run s).state.slot? id = none ∨ (c.perform.run s).answer = some id) := by
  have wf := reach.tableWF
  have step := tableStep_perform wf c
  refine ⟨wf.zero_free, fun id => step.answer_fresh wf, fun id sl held => step.held_kept held, ?_,
    fun id target => perform_of_free target, fun id => step.free_kept⟩
  rintro id rfl
  exact endAction_frees wf id

/-- A fresh session is reachable, and its slot 0 is free. -/
theorem fresh_session_zero_free :
    Reachable ({ env := {} } : Session) ∧ ({ env := {} } : Session).slot? 0 = none :=
  ⟨.fresh { env := {} }, (context_table_discipline (.fresh { env := {} }) (.endAction 1)).1⟩

/-- Writing data without values through an ended identifier is accepted: the write is dropped
before the identifier is looked at. -/
theorem write_without_values_on_ended_identifier :
    let opened := (Call.beginDataEntry "imas:memory?path=/ended" .create).perform.run
      ({ env := {} } : Session)
    let ended := (Call.endAction 1).perform.run opened.state
    let written := (Call.writeData 1 "f" "" ⟨.double, [0], some (.doubles [])⟩).perform.run
      ended.state
    opened.answer = some 1 ∧ (opened.state.slot? 1).isSome ∧ (ended matches .ok none _) ∧
      (ended.state.slot? 1).isNone ∧ (written matches .ok none _) := by
  decide +kernel

end Session

end AccessLayer
