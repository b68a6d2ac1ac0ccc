import RangeRead.Proofs.Transport.Windows

/-!
# What calls ask for and what comes back

Between two states of a logged transport some windows were asked for, and some reads were replied to (`Logged.Makes`).
What a channel does besides opening and reading ranges asks for nothing.
-/

namespace RangeRead

variable {σ H : Type} {t : Transport σ H}

/-! ## Replies -/

/-- Whether a reply brings no bytes although the range goes on. -/
def Reply.IsNothing : Reply → Prop
  | delivered bytes excess => bytes.size + excess = 0
  | failed _ | endOfStream _ => False

/-- The reply to a call that reads a range. -/
def Call.reply? : Call → Option Reply
  | read _ _ reply => some reply
  | refused .. | opened .. | pinned .. | closed .. => none

/-- The replies to calls, in order. -/
def Call.replies (calls : List Call) : List Reply := calls.filterMap reply?

/-! ## Tallies -/

/-- From the state `s` to the state `s'` the transport was asked for these windows, and gave these replies. -/
def Logged.Makes (s s' : Logged σ) (windows : List (Int × Int)) (replies : List Reply) : Prop :=
  ∃ made, s'.calls = s.calls ++ made ∧ Call.windows made = windows ∧ Call.replies made = replies

namespace Logged

theorem Makes.of_eq {s s' : Logged σ} (h : s'.calls = s.calls) : s.Makes s' [] [] :=
  ⟨[], by simp [h], rfl, rfl⟩

theorem Makes.call {s s' : Logged σ} (call : Call) (h : s'.calls = s.calls ++ [call]) :
    s.Makes s' call.window?.toList call.reply?.toList := by
  refine ⟨[call], h, ?_, ?_⟩
  · cases hw : call.window? <;> simp [Call.windows, hw]
  · cases hr : call.reply? <;> simp [Call.replies, hr]

theorem Makes.trans {s s₁ s' : Logged σ} {windows windows' : List (Int × Int)} {replies replies' : List Reply}
    (h : s.Makes s₁ windows replies) (h' : s₁.Makes s' windows' replies') :
    s.Makes s' (windows ++ windows') (replies ++ replies') := by
  obtain ⟨made, hcalls, rfl, rfl⟩ := h
  obtain ⟨made', hcalls', rfl, rfl⟩ := h'
  refine ⟨made ++ made', ?_, ?_, ?_⟩
  · rw [hcalls', hcalls, List.append_assoc]
  · exact Call.windows_append made made'
  · exact List.filterMap_append

/-- What comes after without asking for anything makes no difference. -/
theorem Makes.quiet {s s₁ s' : Logged σ} {windows : List (Int × Int)} {replies : List Reply}
    (h : s.Makes s₁ windows replies) (h' : s₁.Makes s' [] []) : s.Makes s' windows replies := by
  have hboth := h.trans h'
  rwa [List.append_nil, List.append_nil] at hboth

end Logged

/-! ## What a channel does with a logged transport -/

namespace Transport

theorem logged_read_makes {want : Nat} {h h' : Numbered H} {s s' : Logged σ} {reply : Reply}
    (hread : t.logged.read want h s = (reply, h', s')) : s.Makes s' [] [reply] :=
  .call _ (logged_read hread).2.2

theorem logged_closeQuietly_makes (o : ObjectHandle) (h : Numbered H) (s : Logged σ) :
    s.Makes (t.logged.closeQuietly o h s) [] [] := by
  obtain ⟨answer, -, hcalls⟩ := @logged_closeQuietly _ _ t o h s
  exact .call _ hcalls

/-- A range is asked for once, whether or not it can be opened and pinned. -/
theorem logged_openPinned_makes {o : ObjectHandle} {start stop : Int} {s s' : Logged σ}
    {a : Except ReadError (Numbered H)} (h : t.logged.openPinned o start stop s = (a, s')) :
    s.Makes s' [(start, stop)] [] := by
  cases Opens.of_eq h with
  | refused hopen => exact .call _ (logged_openRange_error hopen).2
  | notSought hopen hseek =>
    have hopened : s.Makes _ [(start, stop)] [] := .call _ (logged_openRange_ok hopen).2.2
    exact (hopened.quiet (.call _ (logged_pin hseek).2.2)).quiet (logged_closeQuietly_makes _ _ _)
  | notLimited hopen hseek hlimit =>
    have hopened : s.Makes _ [(start, stop)] [] := .call _ (logged_openRange_ok hopen).2.2
    have hsought := hopened.quiet (.call _ (logged_pin hseek).2.2)
    exact (hsought.quiet (.call _ (logged_pin hlimit).2.2)).quiet (logged_closeQuietly_makes _ _ _)
  | @opened _ _ _ _ _ _ _ s₃ hopen hseek hlimit =>
    have hopened : s.Makes _ [(start, stop)] [] := .call _ (logged_openRange_ok hopen).2.2
    have hsought := hopened.quiet (.call _ (logged_pin hseek).2.2)
    have hlimited : s.Makes s₃ [(start, stop)] [] := hsought.quiet (.call _ (logged_pin hlimit).2.2)
    exact hlimited

end Transport

namespace Channel

theorem logged_noteChange_makes (o : ObjectHandle) (change : Option PatternChange) (s : Logged σ) :
    s.Makes (noteChange t.logged o change s) [] [] :=
  .of_eq (noteChange_keeps (P := fun s' : Logged σ => s'.calls = s.calls) (fun _ h => h) change rfl)

theorem logged_afterRead_makes (c : Channel (Numbered H)) (stop n : Int) (s : Logged σ) :
    s.Makes (c.afterRead t.logged stop n s) [] [] :=
  .of_eq (afterRead_keeps (P := fun s' : Logged σ => s'.calls = s.calls) (fun _ h => h) c stop n rfl)

end Channel

end RangeRead
