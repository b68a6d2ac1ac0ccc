import RangeRead.Proofs.Bytes
import RangeRead.Proofs.Channel.Placed
import RangeRead.Proofs.Transport.Steady
import RangeRead.Proofs.Transport.Tally

/-!
# What is drawn from ranges

Over a truthful transport that does not fail a range gives up exactly the bytes that its cursor passes
(`Placed.draws`). So a skip draws those between the cursor and the position (`Skips.draws`), and filling a buffer, round
by round (`Fills.round`), draws those between the position and where the read ends (`Channel.reach`):

- all of them from the open range, if it reaches so far (`Fills.stays`);
- up to its end from the open range, which is then closed, if it does not (`Fills.crosses`);
- all that are left from a range that is opened at the position, if none is open (`Fills.opens`).
-/

namespace RangeRead

variable {σ H : Type} {t : Transport σ H} {o : ObjectHandle} {data : ByteArray} {v : View σ H}

/-! ## Bytes of calls -/

namespace Call

/-- The bytes that a call wrote. -/
def bytes : Call → ByteArray
  | read _ _ (.delivered bytes _) | read _ _ (.endOfStream bytes) => bytes
  | read _ _ (.failed _) | refused .. | opened .. | pinned .. | closed .. => .empty

/-- The bytes that calls wrote, in order. -/
def written : List Call → ByteArray
  | [] => .empty
  | call :: calls => call.bytes ++ written calls

@[simp] theorem written_append (calls more : List Call) : written (calls ++ more) = written calls ++ written more := by
  induction calls with
  | nil => exact ByteArray.empty_append.symm
  | cons call calls ih =>
    show call.bytes ++ written (calls ++ more) = call.bytes ++ written calls ++ written more
    rw [ih, ByteArray.append_assoc]

/-- The calls that open a range and pin it to its window. -/
def opening (number : Nat) (start stop : Int) : List Call :=
  [.opened number start stop, .pinned number .seek start (.ok ()), .pinned number .limit stop (.ok ())]

theorem windows_opening (number : Nat) (start stop : Int) : windows (opening number start stop) = [(start, stop)] := rfl

/-- Reads ask for no range. -/
theorem windows_of_reads {calls : List Call} {number : Nat} (h : ∀ call ∈ calls, call.Reads number) :
    windows calls = [] := by
  refine List.filterMap_eq_nil_iff.mpr fun call hcall => ?_
  obtain ⟨want, reply, rfl⟩ := h call hcall
  rfl

end Call

namespace Logged

/-- From the state `s` to the state `s'` a range was read, and wrote these bytes; nothing else was done. -/
def Draws (s s' : Logged σ) (number : Nat) (bytes : ByteArray) : Prop :=
  ∃ reads, s'.calls = s.calls ++ reads ∧ (∀ call ∈ reads, call.Reads number) ∧ Call.written reads = bytes

theorem Draws.of_eq {s s' : Logged σ} (number : Nat) (h : s'.calls = s.calls) : s.Draws s' number .empty :=
  ⟨[], by simp [h], by simp, rfl⟩

theorem Draws.trans {s s₁ s' : Logged σ} {number : Nat} {bytes more : ByteArray} (h : s.Draws s₁ number bytes)
    (h' : s₁.Draws s' number more) : s.Draws s' number (bytes ++ more) := by
  obtain ⟨reads, hcalls, hreads, rfl⟩ := h
  obtain ⟨reads', hcalls', hreads', rfl⟩ := h'
  refine ⟨reads ++ reads', ?_, List.forall_mem_append.mpr ⟨hreads, hreads'⟩, Call.written_append _ _⟩
  rw [hcalls', hcalls, List.append_assoc]

/-- What comes after without a call makes no difference. -/
theorem Draws.quiet {s s₁ s' : Logged σ} {number : Nat} {bytes : ByteArray} (h : s.Draws s₁ number bytes)
    (h' : s'.calls = s₁.calls) : s.Draws s' number bytes := by
  have hboth := h.trans (.of_eq number h')
  rwa [ByteArray.append_empty] at hboth

end Logged

theorem Transport.logged_read_draws {want : Nat} {h h' : Numbered H} {s s' : Logged σ} {reply : Reply}
    (hread : t.logged.read want h s = (reply, h', s')) :
    h'.number = h.number ∧ s.Draws s' h.number (Call.read h.number want reply).bytes := by
  obtain ⟨hnumber, -, hcalls⟩ := logged_read hread
  refine ⟨hnumber, [.read h.number want reply], hcalls, fun call hcall => ?_, ByteArray.append_empty⟩
  exact ⟨want, reply, List.mem_singleton.mp hcall⟩

/-- A range that has been opened and pinned is known by the next number. -/
theorem Transport.logged_openPinned_ok {start stop : Int} {s s' : Logged σ} {h : Numbered H}
    (heq : t.logged.openPinned o start stop s = (.ok h, s')) :
    s'.calls = s.calls ++ Call.opening h.number start stop := by
  cases Opens.of_eq heq with
  | @opened _ _ _ _ _ _ _ s₃ hopen hseek hlimit =>
    obtain ⟨hn, -, hc⟩ := logged_openRange_ok hopen
    obtain ⟨hn₂, -, hc₂⟩ := logged_pin hseek
    obtain ⟨hn₃, -, hc₃⟩ := logged_pin hlimit
    show s₃.calls = _
    rw [hc₃, hc₂, hc, hn₃, hn₂, hn, List.append_assoc, List.append_assoc]
    rfl

namespace Channel

/-- Where a read of `need` bytes ends. -/
def reach (c : Channel H) (need : Int) : Int := min c.object.size (c.position + need)

/-- The channel after a read of `need` bytes from a range that was opened for them. -/
def afterOpening (c : Channel H) (need : Int) (handle : H) : Channel H :=
  { c with
    position := c.reach need
    sizing := c.nextSizing need
    range := some ⟨handle, c.reach need, c.nextStop need⟩ }

/-- The channel after a read that the open range served to its end. -/
def afterStaying (c : Channel H) (need : Int) (handle : H) (stop : Int) : Channel H :=
  { c with position := c.reach need, range := some ⟨handle, c.reach need, stop⟩ }

/-- The channel after it has used up the open range. -/
def spending (c : Channel H) (r : OpenRange H) : Channel H := { c with position := r.stop, range := none }

/-! ## Reads of a range -/

/-- A range gives up the bytes that its cursor passes. -/
theorem Placed.draws (ht : t.Truthful o data v) {c : Channel (Numbered H)} {s s' : Logged σ}
    {r : OpenRange (Numbered H)} {want : Nat} {bytes : ByteArray} {excess : Int} {h : Numbered H}
    (hp : Placed v.logged o c s) (hr : c.range = some r)
    (hread : t.logged.read want r.handle s = (.delivered bytes excess, h, s')) :
    h.number = r.handle.number ∧
      s.Draws s' r.handle.number (part data r.cursor (r.cursor + (bytes.size + excess))) := by
  obtain ⟨hstands, hw⟩ := hp.range hr
  obtain ⟨rfl, hbytes⟩ := ht.logged.writes hstands hw hread
  obtain ⟨hnumber, hdraws⟩ := Transport.logged_read_draws hread
  have h0 := hw.nonneg
  have hend : (r.cursor + (bytes.size + 0)).toNat = r.cursor.toNat + bytes.size := by omega
  refine ⟨hnumber, ?_⟩
  unfold part
  rw [hend, ← hbytes]
  exact hdraws

/-- Taking down an empty read is no call. -/
theorem afterRead_calls (c : Channel (Numbered H)) (stop k : Int) (s : Logged σ) :
    (c.afterRead t.logged stop k s).calls = s.calls :=
  afterRead_keeps (P := fun s' : Logged σ => s'.calls = s.calls) (fun _ h => h) c stop k rfl

/-- A range at the position gives up the bytes from there on, and stays. -/
theorem Placed.draws_aligned (ht : t.Truthful o data v) {c : Channel (Numbered H)} {s s' : Logged σ}
    {r : OpenRange (Numbered H)} {want : Nat} {bytes : ByteArray} {excess : Int} {h : Numbered H}
    (hp : Placed v.logged o c s) (hr : c.range = some r) (hcursor : r.cursor = c.position)
    (hread : t.logged.read want r.handle s = (.delivered bytes excess, h, s')) :
    let k := bytes.size + excess
    c.reach k = c.position + k ∧ c.reach k ≤ r.stop ∧ h.number = r.handle.number ∧
      c.afterStaying k h r.stop = { c with position := c.position + k, range := some (r.advance h k) } ∧
      s.Draws (c.afterRead t.logged r.stop k s') r.handle.number (part data c.position (c.reach k)) := by
  intro k
  obtain ⟨-, -, hstop, -⟩ := hp.delivered ht.logged.toHonest hr hread
  obtain ⟨hnumber, hdraws⟩ := hp.draws ht hr hread
  have hsize := (hp.range hr).2.le_size
  rw [← hp.object] at hsize
  rw [hcursor] at hstop hdraws
  have hreach : c.reach k = c.position + k := by
    unfold reach
    omega
  refine ⟨hreach, hreach ▸ hstop, hnumber, ?_, ?_⟩
  · unfold OpenRange.advance afterStaying
    rw [hcursor, hreach]
  · rw [hreach]
    exact hdraws.quiet (afterRead_calls c r.stop k s')

/-- A read that tells the end gives up nothing. -/
theorem Placed.draws_nothing (ht : t.Truthful o data v) {c : Channel (Numbered H)} {s s' : Logged σ}
    {r : OpenRange (Numbered H)} {want : Nat} {bytes : ByteArray} {h : Numbered H} (hp : Placed v.logged o c s)
    (hr : c.range = some r) (hread : t.logged.read want r.handle s = (.endOfStream bytes, h, s')) :
    h.number = r.handle.number ∧ s.Draws s' r.handle.number .empty := by
  obtain ⟨hstands, hw⟩ := hp.range hr
  obtain rfl := ht.logged.writes_nothing hstands hw hread
  exact Transport.logged_read_draws hread

variable (ht : t.Truthful o data v) (hsteady : t.Steady o v)
include ht hsteady

/-! ## Skipping -/

/-- A skip ahead inside the range draws the bytes on the way. -/
theorem Skips.draws {n : Nat} {c c' : Channel (Numbered H)} {s s' : Logged σ} {a : Outcome ReadError Unit}
    (h : Skips t.logged n c s a c' s') {r : OpenRange (Numbered H)} (hp : Placed v.logged o c s)
    (hr : c.range = some r) (hahead : r.cursor < c.position) (hinside : c.position < r.stop) (hends : a ≠ .stalled) :
    a = .done () ∧ ∃ handle, handle.number = r.handle.number ∧
      c' = { c with range := some ⟨handle, c.position, r.stop⟩ } ∧
      s.Draws s' r.handle.number (part data r.cursor c.position) := by
  induction h generalizing r with
  | stalled => exact absurd rfl hends
  | noRange hnone =>
    rw [hnone] at hr
    cases hr
  | failed hr' hread =>
    cases hr.symm.trans hr'
    obtain ⟨hstands, hw⟩ := hp.range hr
    exact absurd hread (hsteady.logged.reads hstands hw (skipRoom_pos hahead))
  | ended hr' hread =>
    cases hr.symm.trans hr'
    obtain ⟨hstands, hw⟩ := hp.range hr
    have hend := hsteady.logged.ends hstands hw (skipRoom_pos hahead) hread
    omega
  | @arrived n c s r bytes excess h s' hr' hread hle =>
    cases hr'.symm.trans hr
    obtain ⟨-, hwant, -, -⟩ := hp.delivered ht.logged.toHonest hr hread
    obtain ⟨hnumber, hdraws⟩ := hp.draws ht hr hread
    have hend : r.cursor + (bytes.size + excess) = c.position := by omega
    rw [hend] at hdraws
    refine ⟨rfl, h, hnumber, ?_, hdraws⟩
    unfold OpenRange.advance
    rw [hend]
  | @onward n c s r bytes excess h s₁ a c' s' hr' hread hlt _ ih =>
    cases hr'.symm.trans hr
    obtain ⟨hn, -, hstop, hholds⟩ := hp.delivered ht.logged.toHonest hr hread
    obtain ⟨hnumber, hdraws⟩ := hp.draws ht hr hread
    obtain ⟨rfl, handle, hnumber', rfl, hrest⟩ :=
      ih ⟨hp.object, hp.nonneg, hp.le_size, hholds⟩ rfl hlt hinside hends
    refine ⟨rfl, handle, hnumber'.trans hnumber, rfl, ?_⟩
    have hrest' : s₁.Draws s' r.handle.number (part data (r.cursor + (bytes.size + excess)) c.position) := by
      rw [← hnumber]
      exact hrest
    have hmiddle : r.cursor ≤ r.cursor + (bytes.size + excess) := by omega
    rw [← part_append_part data hmiddle (Int.le_of_lt hlt)]
    exact hdraws.trans hrest'

/-! ## Filling -/

omit ht hsteady in
/-- The rest of the buffer, where the count is not below zero. -/
theorem room_eq {want : Nat} {got : Filling} (h0 : 0 ≤ got.count) (hlt : got.count < want) :
    ((got.room want : Nat) : Int) = want - got.count := by
  unfold Filling.room fillOffset
  rw [if_pos h0]
  omega

section Fills

variable {n want : Nat} {gap : Nat → Nat → ByteArray} {got : Filling} {c c' : Channel (Numbered H)} {s s' : Logged σ}
  {a : Outcome ReadError Filling}

/-- What a round of filling comes to that reads the open range `r`. -/
inductive Round (t : Transport σ H) (o : ObjectHandle) (data : ByteArray) (v : View σ H) (want : Nat)
    (gap : Nat → Nat → ByteArray) (n : Nat) (got : Filling) (c : Channel (Numbered H)) (s : Logged σ)
    (r : OpenRange (Numbered H)) (a : Outcome ReadError Filling) (c' : Channel (Numbered H)) (s' : Logged σ) : Prop
  /-- The range is used up and closed, and the filling goes on without one. -/
  | spends {got' handle s₁} (hend : c.position = r.stop) (hsize : r.stop ≠ c.object.size)
      (hcount : got'.count = got.count) (hnumber : handle.number = r.handle.number)
      (hdraws : s.Draws s₁ r.handle.number .empty)
      (hplaced : Placed v.logged o (c.spending r) (t.logged.closeQuietly c.object handle s₁))
      (rest : Fills t.logged want gap n got' (c.spending r) (t.logged.closeQuietly c.object handle s₁) a c' s')
  /-- The range gives up the last bytes of the read. -/
  | finishes {got' handle} (hstop : c.reach (want - got.count) ≤ r.stop) (hdone : a = .done got')
      (hnumber : handle.number = r.handle.number) (hc' : c' = c.afterStaying (want - got.count) handle r.stop)
      (hdraws : s.Draws s' r.handle.number (part data c.position (c.reach (want - got.count))))
  /-- The range gives up some bytes, and the filling goes on with it. -/
  | advances {k : Int} {got' : Filling} {handle s₁} (hk : 0 ≤ k) (hreach : c.reach k = c.position + k)
      (hstop : c.reach k ≤ r.stop) (hcount : got'.count = got.count + k) (hmore : got'.count < want)
      (hnumber : handle.number = r.handle.number)
      (hdraws : s.Draws s₁ r.handle.number (part data c.position (c.reach k)))
      (hplaced : Placed v.logged o (c.afterStaying k handle r.stop) s₁)
      (rest : Fills t.logged want gap n got' (c.afterStaying k handle r.stop) s₁ a c' s')

/-- A round reads the open range, and what it comes to follows from the reply. -/
theorem Fills.round (h : Fills t.logged want gap (n + 1) got c s a c' s') {r : OpenRange (Numbered H)}
    (hp : Placed v.logged o c s) (ha : Aligned c) (hr : c.range = some r) (h0 : 0 ≤ got.count)
    (hlt : got.count < want) : Round t o data v want gap n got c s r a c' s' := by
  have hensured := @ensureRange_of_range _ _ t.logged c s r (want - got.count) hr
  obtain ⟨hstands, hw⟩ := hp.range hr
  have hcursor := ha r hr
  cases h with
  | notOpened hensure => cases hensured.symm.trans hensure
  | failed hensure hread =>
    cases hensured.symm.trans hensure
    exact absurd hread (hsteady.logged.reads hstands hw (Filling.room_pos (by omega) hlt))
  | cutShort hensure hread hearly _ =>
    cases hensured.symm.trans hensure
    have hend := hsteady.logged.ends hstands hw (Filling.room_pos (by omega) hlt) hread
    exact absurd (hcursor.symm.trans hend) hearly
  | @continued _ _ _ _ _ _ _ bytes handle s₂ _ _ _ hensure hread hend hgoes rest =>
    cases hensured.symm.trans hensure
    obtain ⟨hnumber, hdraws⟩ := hp.draws_nothing ht hr hread
    have hspent : c.spending r = { c with range := none } := by
      unfold spending
      rw [← hend]
    have hidle := ht.logged.closeQuietly c.object (ht.logged.ended hstands hw hread)
    exact .spends hend hgoes (Int.add_zero _) hnumber hdraws (hspent ▸ hp.drop hidle) (hspent ▸ rest)
  | @ended _ _ _ _ _ _ _ bytes handle s₂ hensure hread hend _ =>
    cases hensured.symm.trans hensure
    obtain ⟨hnumber, hdraws⟩ := hp.draws_nothing ht hr hread
    have hreach : c.reach (want - got.count) = c.position := by
      unfold reach
      omega
    have hbefore := hw.le
    refine .finishes (by omega) rfl hnumber ?_ ?_
    · unfold afterStaying
      rw [hreach, ← hcursor]
    · rw [hreach, part_self]
      exact hdraws
  | @full _ _ _ _ _ _ _ bytes excess handle s₂ hensure hread hle =>
    cases hensured.symm.trans hensure
    obtain ⟨-, hwant, -⟩ := hp.delivered ht.logged.toHonest hr hread
    obtain ⟨-, hstop, hnumber, hafter, hdraws⟩ := hp.draws_aligned ht hr hcursor hread
    have hcount : (got.add gap want bytes (bytes.size + excess)).count = got.count + (bytes.size + excess) := rfl
    have hroom := room_eq h0 hlt
    have hall : bytes.size + excess = want - got.count := by omega
    exact .finishes (hall ▸ hstop) rfl hnumber (hall ▸ hafter.symm) (hall ▸ hdraws)
  | @more _ _ _ _ _ _ _ bytes excess handle s₂ _ _ _ hensure hread hmore rest =>
    cases hensured.symm.trans hensure
    obtain ⟨hk, -⟩ := hp.delivered ht.logged.toHonest hr hread
    obtain ⟨hplaced, -⟩ := hp.read ht.logged.toHonest hr hcursor hread
    obtain ⟨hreach, hstop, hnumber, hafter, hdraws⟩ := hp.draws_aligned ht hr hcursor hread
    rw [← hafter] at hplaced rest
    exact .advances hk hreach hstop rfl hmore hnumber hdraws hplaced rest

omit ht hsteady in
/-- After some bytes of a read, the rest of it reaches as far as the read. -/
theorem reach_afterStaying {k : Int} (h : c.reach k = c.position + k) (need : Int) (handle : Numbered H) (stop : Int) :
    (c.afterStaying k handle stop).reach (need - k) = c.reach need := by
  show min (c.object.size : Int) (c.reach k + (need - k)) = min (c.object.size : Int) (c.position + need)
  rw [h]
  congr 1
  omega

/-- A range that reaches to the end of the read gives up all of its bytes. -/
theorem Fills.stays (h : Fills t.logged want gap n got c s a c' s') {r : OpenRange (Numbered H)}
    (hp : Placed v.logged o c s) (ha : Aligned c) (hr : c.range = some r) (h0 : 0 ≤ got.count) (hlt : got.count < want)
    (hstop : c.reach (want - got.count) ≤ r.stop) (hends : a ≠ .stalled) :
    (∃ got', a = .done got') ∧ ∃ handle, handle.number = r.handle.number ∧
      c' = c.afterStaying (want - got.count) handle r.stop ∧
      s.Draws s' r.handle.number (part data c.position (c.reach (want - got.count))) := by
  induction n generalizing got c s r with
  | zero =>
    cases h
    exact absurd rfl hends
  | succ n ih =>
    cases h.round ht hsteady hp ha hr h0 hlt with
    | spends hend hgoes _ _ _ _ _ =>
      -- the object goes on behind the range, but the read does not
      have hle := (hp.range hr).2.le_size
      rw [← hp.object] at hle
      unfold reach at hstop
      omega
    | finishes _ hdone hnumber hc' hdraws => exact ⟨⟨_, hdone⟩, _, hnumber, hc', hdraws⟩
    | @advances k got' handle s₁ hk hreach _ hcount hmore hnumber hdraws hplaced rest =>
      have hleft : (want : Int) - got'.count = want - got.count - k := by omega
      have hsame := reach_afterStaying hreach (want - got.count) handle r.stop
      rw [← hleft] at hsame
      obtain ⟨hdone, handle', hnumber', rfl, hrest⟩ :=
        ih rest hplaced (.of_range rfl rfl) rfl (by omega) hmore (by rw [hsame]; exact hstop)
      rw [hsame] at hrest
      refine ⟨hdone, handle', hnumber'.trans hnumber, ?_, ?_⟩
      · unfold afterStaying at hsame ⊢
        rw [hsame]
      · have hfirst : c.position ≤ c.reach k := by omega
        have hsecond : c.reach k ≤ c.reach (want - got.count) := by
          unfold reach
          omega
        rw [← part_append_part data hfirst hsecond]
        exact hdraws.trans (hnumber ▸ hrest)

/-- A range that ends before the read does gives up the bytes that it has, and is closed before the filling goes on. -/
theorem Fills.crosses (h : Fills t.logged want gap n got c s a c' s') {r : OpenRange (Numbered H)}
    (hp : Placed v.logged o c s) (ha : Aligned c) (hr : c.range = some r) (h0 : 0 ≤ got.count)
    (hshort : r.stop < c.reach (want - got.count)) (hends : a ≠ .stalled) :
    ∃ n' got' handle s₁, 0 ≤ got'.count ∧ r.stop + (want - got'.count) = c.position + (want - got.count) ∧
      handle.number = r.handle.number ∧ s.Draws s₁ r.handle.number (part data c.position r.stop) ∧
      Placed v.logged o (c.spending r) (t.logged.closeQuietly c.object handle s₁) ∧
      Fills t.logged want gap n' got' (c.spending r) (t.logged.closeQuietly c.object handle s₁) a c' s' := by
  induction n generalizing got c s r with
  | zero =>
    cases h
    exact absurd rfl hends
  | succ n ih =>
    have hbefore : c.position ≤ r.stop := ha r hr ▸ (hp.range hr).2.le
    have hlt : got.count < want := by
      unfold reach at hshort
      omega
    cases h.round ht hsteady hp ha hr h0 hlt with
    | @spends got' handle s₁ hend _ hcount hnumber hdraws hplaced rest =>
      refine ⟨n, got', handle, s₁, by omega, by omega, hnumber, ?_, hplaced, rest⟩
      rw [hend, part_self]
      exact hdraws
    | finishes hstop _ _ _ _ => exact absurd hshort (Int.not_lt.mpr hstop)
    | @advances k got' handle s₁ hk hreach hstop hcount _ hnumber hdraws hplaced rest =>
      have hleft : (want : Int) - got'.count = want - got.count - k := by omega
      have hsame := reach_afterStaying hreach (want - got.count) handle r.stop
      rw [← hleft] at hsame
      obtain ⟨n', last, handle', s₂, hnonneg, hends', hnumber', hrest, hplaced', hfills⟩ :=
        ih rest hplaced (.of_range rfl rfl) rfl (by omega) (by rw [hsame]; exact hshort)
      have hposition : (c.afterStaying k handle r.stop).position = c.position + k := hreach
      refine ⟨n', last, handle', s₂, hnonneg, ?_, hnumber'.trans hnumber, ?_, hplaced', hfills⟩
      · dsimp only at hends'
        omega
      · have hfirst : c.position ≤ c.reach k := by omega
        rw [← part_append_part data hfirst hstop]
        exact hdraws.trans (hnumber ▸ hrest)

omit ht hsteady in
/-- With a range that had to be opened first a filling goes on as if it had been open. -/
theorem fill_ensured {r : OpenRange (Numbered H)} {c₁ : Channel (Numbered H)} {s₁ : Logged σ}
    (h : c.ensureRange t.logged (want - got.count) s = (.ok r, c₁, s₁)) :
    fill t.logged want gap (n + 1) got c s = fill t.logged want gap (n + 1) got c₁ s₁ := by
  unfold fill
  rw [h, ensureRange_of_range _ (ensureRange_ok h)]

omit ht hsteady in
/-- Noting a change is no call. -/
theorem noteChange_calls (o : ObjectHandle) (change : Option PatternChange) (s : Logged σ) :
    (noteChange t.logged o change s).calls = s.calls :=
  noteChange_keeps (P := fun s' : Logged σ => s'.calls = s.calls) (fun _ h => h) change rfl

/-- Without a range one is opened at the position. -/
theorem ensureRange_opens (need : Int) (hp : Placed v.logged o c s) (hr : c.range = none) :
    ∃ (handle : Numbered H) (s₁ : Logged σ),
      c.ensureRange t.logged need s = (.ok ⟨handle, c.position, c.nextStop need⟩,
        { c with sizing := c.nextSizing need, range := some ⟨handle, c.position, c.nextStop need⟩ }, s₁) ∧
      s₁.calls = s.calls ++ Call.opening handle.number c.position (c.nextStop need) := by
  have hidle := hp.holds
  rw [hr] at hidle
  obtain rfl := hp.object
  obtain ⟨hwindow, -⟩ := nextStop_window need hp.nonneg hp.le_size
  have hnoted : v.logged.idle (c.noted t.logged need s) := noteChange_keeps ht.logged.note_idle _ hidle
  obtain ⟨handle, s₁, hopen⟩ := hsteady.logged.opens hnoted hwindow
  have hcalls := Transport.logged_openPinned_ok hopen
  refine ⟨handle, s₁, ?_, hcalls.trans (congrArg (· ++ _) (noteChange_calls _ _ _))⟩
  rw [ensureRange_of_none hr, hopen]

/-- Without a range one is opened at the position, and gives up all the bytes of the read. -/
theorem Fills.opens (h : Fills t.logged want gap n got c s a c' s') (hp : Placed v.logged o c s)
    (hr : c.range = none) (h0 : 0 ≤ got.count) (hlt : got.count < want) (hends : a ≠ .stalled) :
    (∃ got', a = .done got') ∧ ∃ (handle : Numbered H) (s₁ : Logged σ),
      s₁.calls = s.calls ++ Call.opening handle.number c.position (c.nextStop (want - got.count)) ∧
      c' = c.afterOpening (want - got.count) handle ∧
      s₁.Draws s' handle.number (part data c.position (c.reach (want - got.count))) := by
  cases n with
  | zero =>
    cases h
    exact absurd rfl hends
  | succ n =>
    obtain ⟨handle, s₁, hensure, hcalls⟩ := ensureRange_opens ht hsteady (want - got.count) hp hr
    obtain ⟨-, -, -, hp₁⟩ := ensureRange_placed ht.logged.toHonest hp (.of_none hr) hensure
    have hfills := fills_fill (t := t.logged) want gap (n + 1) got { c with
      sizing := c.nextSizing (want - got.count)
      range := some ⟨handle, c.position, c.nextStop (want - got.count)⟩ } s₁
    rw [← fill_ensured hensure, h.eq] at hfills
    obtain ⟨hdone, handle', hnumber, hc', hdraws⟩ :=
      hfills.stays ht hsteady hp₁ (.of_range rfl rfl) rfl h0 hlt (nextStop_reaches c _).1 hends
    refine ⟨hdone, handle', s₁, ?_, hc', ?_⟩
    · rw [hnumber]
      exact hcalls
    · rw [hnumber]
      exact hdraws

end Fills

end Channel

end RangeRead
