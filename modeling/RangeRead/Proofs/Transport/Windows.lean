import RangeRead.Proofs.Transport.LogHonest

/-!
# Windows that are asked for

A view can be strengthened by a property of the state that every call keeps, if only windows of the object are opened
(`Honest.and`). That all windows that a logged transport was asked for are such windows is a property of this kind
(`logged_asksWithin`).
-/

namespace RangeRead

variable {σ H : Type} {t : Transport σ H} {o : ObjectHandle} {v : View σ H}

/-! ## Windows of calls -/

/-- The window that a call asks for, whether the range was opened or refused. -/
def Call.window? : Call → Option (Int × Int)
  | refused start stop _ | opened _ start stop => some (start, stop)
  | pinned .. | read .. | closed .. => none

/-- The windows that calls ask for, in order. -/
def Call.windows (calls : List Call) : List (Int × Int) := calls.filterMap window?

theorem Call.windows_append (calls more : List Call) :
    windows (calls ++ more) = windows calls ++ windows more :=
  List.filterMap_append

/-- A call that is no opening asks for no window. -/
theorem Call.windows_snoc (calls : List Call) {call : Call} (h : call.window? = none) :
    windows (calls ++ [call]) = windows calls := by
  rw [windows_append]
  simp [windows, h]

/-- An opening asks for one. -/
theorem Call.windows_snoc_window (calls : List Call) {call : Call} {window : Int × Int}
    (h : call.window? = some window) : windows (calls ++ [call]) = windows calls ++ [window] := by
  rw [windows_append]
  simp [windows, h]

/-- All windows that a transport was asked for are windows of the object. -/
def Logged.AsksWithin (o : ObjectHandle) (s : Logged σ) : Prop :=
  ∀ window ∈ Call.windows s.calls, o.Window window.1 window.2

/-! ## Stronger views -/

/-- What the view says, and that the state has a property. -/
def View.and (v : View σ H) (W : σ → Prop) : View σ H where
  idle s := v.idle s ∧ W s
  stands h cursor stop s := v.stands h cursor stop s ∧ W s

theorem View.holds_and {W : σ → Prop} {range : Option (OpenRange H)} {s : σ} (h : (v.and W).Holds o range s) :
    v.Holds o range s ∧ W s := by
  cases range with
  | none => exact h
  | some r => exact ⟨⟨h.1.1, h.2⟩, h.1.2⟩

/-- A property that the state has makes the view stronger. -/
theorem View.and_holds {W : σ → Prop} {range : Option (OpenRange H)} {s : σ} (h : v.Holds o range s) (hW : W s) :
    (v.and W).Holds o range s := by
  cases range with
  | none => exact ⟨h, hW⟩
  | some r => exact ⟨⟨h.1, hW⟩, h.2⟩

/-- All calls keep a property of the state, where only windows of the object are asked for. -/
structure Transport.Preserves (t : Transport σ H) (o : ObjectHandle) (W : σ → Prop) : Prop where
  openRange : ∀ {start stop s a s'}, o.Window start stop → W s → t.openRange o start stop s = (a, s') → W s'
  pin : ∀ {pin offset h s a h' s'}, W s → t.pin pin offset h s = (a, h', s') → W s'
  read : ∀ {want h s reply h' s'}, W s → t.read want h s = (reply, h', s') → W s'
  close : ∀ {h s}, W s → W (t.close h s).2
  note : ∀ {notice s}, W s → W (t.note notice s)

namespace Transport

/-- A transport is as honest with a property that its calls keep. -/
theorem Honest.and {W : σ → Prop} (ht : t.Honest o v) (hW : t.Preserves o W) : t.Honest o (v.and W) where
  note_idle notice hs := ⟨ht.note_idle notice hs.1, hW.note hs.2⟩
  note_stands notice hs := ⟨ht.note_stands notice hs.1, hW.note hs.2⟩
  opened hs hw heq := by
    obtain ⟨cursor, stop, hopened⟩ := ht.opened hs.1 hw heq
    exact ⟨cursor, stop, hopened, hW.openRange hw hs.2 heq⟩
  refused hs hw heq := ⟨ht.refused hs.1 hw heq, hW.openRange hw hs.2 heq⟩
  sought hs heq := ⟨ht.sought hs.1 heq, hW.pin hs.2 heq⟩
  limited hs heq := ⟨ht.limited hs.1 heq, hW.pin hs.2 heq⟩
  notPinned hs heq := by
    obtain ⟨cursor, stop, hleft⟩ := ht.notPinned hs.1 heq
    exact ⟨cursor, stop, hleft, hW.pin hs.2 heq⟩
  failed hs hw heq := by
    obtain ⟨cursor, stop, hleft⟩ := ht.failed hs.1 hw heq
    exact ⟨cursor, stop, hleft, hW.read hs.2 heq⟩
  ended hs hw heq := ⟨ht.ended hs.1 hw heq, hW.read hs.2 heq⟩
  reports hs hw heq := ht.reports hs.1 hw heq
  delivered hs hw heq := ⟨ht.delivered hs.1 hw heq, hW.read hs.2 heq⟩
  close hs := ⟨ht.close hs.1, hW.close hs.2⟩

/-- A logged transport keeps to the windows of the object that it is used for. -/
theorem logged_asksWithin (t : Transport σ H) (o : ObjectHandle) : t.logged.Preserves o (Logged.AsksWithin o) where
  openRange {start stop s a s'} hw hs hopen := by
    have hcalls : ∃ call : Call, call.window? = some (start, stop) ∧ s'.calls = s.calls ++ [call] := by
      cases a with
      | error e => exact ⟨_, rfl, (logged_openRange_error hopen).2⟩
      | ok h => exact ⟨_, rfl, (logged_openRange_ok hopen).2.2⟩
    obtain ⟨call, hwindow, hcalls⟩ := hcalls
    unfold Logged.AsksWithin
    rw [hcalls, Call.windows_snoc_window _ hwindow, List.forall_mem_append]
    exact ⟨hs, fun window hmem => by rw [List.mem_singleton.mp hmem]; exact hw⟩
  pin hs hpin := by
    unfold Logged.AsksWithin
    rw [(logged_pin hpin).2.2, Call.windows_snoc _ rfl]
    exact hs
  read hs hread := by
    unfold Logged.AsksWithin
    rw [(logged_read hread).2.2, Call.windows_snoc _ rfl]
    exact hs
  close {h s} hs := by
    unfold Logged.AsksWithin
    rw [(logged_close (Prod.eta _).symm).2, Call.windows_snoc _ rfl]
    exact hs
  note hs := hs

/-- A log takes nothing back. -/
theorem logged_extends (t : Transport σ H) (o : ObjectHandle) (calls : List Call) :
    t.logged.Preserves o fun s => calls <+: s.calls where
  openRange {start stop s a s'} _ hs hopen := by
    have hcalls : ∃ call, s'.calls = s.calls ++ [call] := by
      cases a with
      | error e => exact ⟨_, (logged_openRange_error hopen).2⟩
      | ok h => exact ⟨_, (logged_openRange_ok hopen).2.2⟩
    obtain ⟨call, hcalls⟩ := hcalls
    rw [hcalls]
    exact hs.trans (List.prefix_append _ _)
  pin hs hpin := by
    rw [(logged_pin hpin).2.2]
    exact hs.trans (List.prefix_append _ _)
  read hs hread := by
    rw [(logged_read hread).2.2]
    exact hs.trans (List.prefix_append _ _)
  close {h s} hs := by
    rw [(logged_close (Prod.eta _).symm).2]
    exact hs.trans (List.prefix_append _ _)
  note hs := hs

end Transport

end RangeRead
