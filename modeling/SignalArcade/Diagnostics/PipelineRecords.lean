import SignalArcade.Diagnostics.PipelineCursor
import SignalArcade.Lib.Selection

/-!
# What the pipeline records

The other side of the cursor, in `orchestrator.py`. `_record_pipeline_recent` counts in the bucket of the second, of which
the latest 4096 are kept. `_diagnostic_pipeline` gives the buckets from the cursor on to a take, and closes the bucket at
hand: the bucket at the cursor does not grow any more.
-/

namespace SignalArcade.Diagnostics

open Runs List

/-! ### The buckets of the pipeline -/

/-- What is recorded. -/
inductive Kind where
  | enqueued | processed | shed | expired | reordered

def Kind.counter : Kind → Counter
  | .enqueued => .enqueued
  | .processed => .processed
  | .shed => .shed
  | .expired => .expired
  | .reordered => .reordered

/-- `_PIPELINE_LAG_BOUNDS_SECONDS`. -/
def lagBoundsSeconds : List ℚ := [1 / 10, 1 / 4, 1 / 2, 1, 2, 5, 10, 30]

/-- `index`. -/
def lagIndex (lag : ℚ) : Fin 9 := Fin.ofNat 9 (lagBoundsSeconds.findIdx fun bound => lag ≤ bound)

/-- The arguments of `_record_pipeline_recent`, the second it is, and the length of the queue. -/
structure Recording where
  kind : Kind
  second : ℤ
  count : ℤ := 1
  lagSeconds : Option ℚ := none
  critical : Bool := false
  queueSize : ℚ := 0

namespace Recording

variable (recording : Recording)

def lag : ℚ := max 0 (recording.lagSeconds.getD 0)

def more (cell : Cell) : ℕ :=
  (if cell = .counter recording.kind.counter then recording.count.toNat else 0) +
    if recording.lagSeconds.isSome then
      (if cell = .counter .lagCount ∨ cell = .bar .lag (lagIndex recording.lag) then recording.count.toNat else 0) +
        if recording.critical ∧ (cell = .counter .criticalCount ∨ cell = .bar .critical (lagIndex recording.lag)) then
          recording.count.toNat
        else 0
    else 0

def peak (old : Maximum → ℚ) (maximum : Maximum) : ℚ :=
  if recording.lagSeconds.isNone then old maximum
  else match maximum with
    | .lagMax => max (old .lagMax) recording.lag
    | .queueMax => max (old .queueMax) recording.queueSize
    | .criticalLagMax => if recording.critical then max (old .criticalLagMax) recording.lag else old .criticalLagMax

end Recording

/-- A bucket, with its second. -/
structure SecondBucket where
  second : ℤ
  bucket : Bucket

/-- A bucket in which nothing was counted. -/
def SecondBucket.new (second : ℤ) (serial : ℕ) : SecondBucket where
  second := second
  bucket := ⟨serial, fun _ => 0, fun _ => 0⟩

/-- `_pipeline_recent` and what goes with it. -/
structure Pipeline where
  recent : List SecondBucket := []
  sequence : ℕ := 0
  diagnosticBoundary : Bool := false

/-- The `maxlen` of `_pipeline_recent`. -/
def recentLimit : ℕ := 4096

/-- More is counted in a bucket. -/
def SecondBucket.add (recording : Recording) (item : SecondBucket) : SecondBucket :=
  { item with
    bucket := { item.bucket with
      count := fun cell => item.bucket.count cell + recording.more cell
      peak := recording.peak item.bucket.peak } }

namespace Pipeline

variable (pipeline : Pipeline)

/-- Whether a new bucket is opened. -/
def opens (second : ℤ) : Bool :=
  pipeline.recent.getLast?.all fun item => decide (item.second ≠ second) || pipeline.diagnosticBoundary

/-- A new bucket. -/
def opened (second : ℤ) : Pipeline where
  recent := (pipeline.recent ++ [SecondBucket.new second (pipeline.sequence + 1)]).rtake recentLimit
  sequence := pipeline.sequence + 1
  diagnosticBoundary := false

/-- The last bucket counts. -/
def counted (recording : Recording) : Pipeline :=
  { pipeline with recent := pipeline.recent.modify (pipeline.recent.length - 1) (SecondBucket.add recording) }

/-- `_record_pipeline_recent`. -/
def record (recording : Recording) : Pipeline :=
  if recording.count ≤ 0 then pipeline
  else if pipeline.opens recording.second then (pipeline.opened recording.second).counted recording
  else pipeline.counted recording

/-- The buckets that `_diagnostic_pipeline` gives to the cursor. -/
def buckets (cursor : PipelineCursor) : List Bucket :=
  (pipeline.recent.map SecondBucket.bucket).filter fun bucket => cursor.serial ≤ bucket.serial

end Pipeline

/-- The pipeline, the cursor, what the takes returned and whether they told of a gap; and what was recorded in all, now
and at the last take. -/
structure Collected where
  pipeline : Pipeline := {}
  cursor : PipelineCursor := {}
  returned : Cell → ℕ := fun _ => 0
  gapped : Bool := false
  recorded : Cell → ℕ := fun _ => 0
  upTo : Cell → ℕ := fun _ => 0

/-- A recording, or a request for the diagnostics. -/
inductive Collecting where
  | record (recording : Recording)
  | diagnose

/-- A recording, or a `_diagnostic_pipeline`. -/
def collect (c : Collected) : Collecting → Collected
  | .record recording =>
    { c with
      pipeline := c.pipeline.record recording
      recorded := fun cell => c.recorded cell + if recording.count ≤ 0 then 0 else recording.more cell }
  | .diagnose =>
    { c with
      pipeline := { c.pipeline with diagnosticBoundary := true }
      cursor := (c.cursor.take (c.pipeline.buckets c.cursor)).2
      returned := fun cell => c.returned cell + (c.cursor.take (c.pipeline.buckets c.cursor)).1.1.count cell
      gapped := c.gapped || (c.cursor.take (c.pipeline.buckets c.cursor)).1.2
      upTo := c.recorded }

/-! ### The history behind it -/

/-- The buckets are the latest of the history. The one at the cursor is as it was taken, and is the last one only while
the next recording will open another. -/
structure Follows (c : Collected) (s : History) : Prop where
  sound : Sound 1 s
  recent : c.pipeline.recent.map SecondBucket.bucket = (s.entries.map Entry.bucket).rtake recentLimit
  sequence : c.pipeline.sequence = s.entries.length
  cursor : c.cursor = s.cursor
  returned : c.returned = s.returned
  gapped : c.gapped = s.gapped
  recorded : ∀ cell, c.recorded cell = total s.entries cell
  upTo : ∀ cell, c.upTo cell = s.upTo cell
  settled : ∀ entry ∈ s.entries, entry.bucket.serial = s.cursor.serial →
    ∀ cell, entry.bucket.count cell = s.cursor.known cell
  closed : c.pipeline.diagnosticBoundary = false → s.entries = [] ∨ s.cursor.serial < s.entries.length

theorem Follows.new : Follows {} {} where
  sound := Sound.new
  recent := rfl
  sequence := rfl
  cursor := rfl
  returned := rfl
  gapped := rfl
  recorded _ := rfl
  upTo _ := rfl
  settled entry h := by simp at h
  closed _ := .inl rfl

theorem modify_concat {α : Type} (l : List α) (a : α) (f : α → α) :
    (l ++ [a]).modify ((l ++ [a]).length - 1) f = l ++ [f a] := by
  apply ext_getElem?
  intro i
  rw [getElem?_modify, length_append, length_singleton, Nat.add_sub_cancel, Option.map_eq_map]
  rcases lt_trichotomy i l.length with hlt | rfl | hgt
  · rw [getElem?_append_left hlt, getElem?_append_left hlt]
    simp [hlt.ne']
  · simp
  · have hlength (b : α) : (l ++ [b]).length ≤ i := by
      rw [length_append]
      exact hgt
    rw [getElem?_eq_none (hlength a), getElem?_eq_none (hlength (f a)), Option.map_none]

theorem total_concat (entries : List Entry) (entry : Entry) (cell : Cell) :
    total (entries ++ [entry]) cell = total entries cell + entry.bucket.count cell := by
  unfold total
  rw [map_append, sum_append]
  simp

theorem filter_numbered {buckets : List Bucket} {base : ℕ}
    (h : ∀ (i : ℕ) (bucket : Bucket), buckets[i]? = some bucket → bucket.serial = base + i) (serial : ℕ) :
    buckets.filter (fun bucket => serial ≤ bucket.serial) = buckets.drop (serial - base) := by
  induction buckets generalizing base with
  | nil => simp
  | cons bucket buckets ih =>
    have hfirst : bucket.serial = base := h 0 bucket rfl
    have hrest : ∀ (i : ℕ) (b : Bucket), buckets[i]? = some b → b.serial = (base + 1) + i := by
      intro i b hb
      have := h (i + 1) b hb
      omega
    rw [filter_cons, ih hrest]
    by_cases hle : serial ≤ bucket.serial
    · have hzero : serial - base = 0 ∧ serial - (base + 1) = 0 := by omega
      rw [if_pos (by simpa using hle), hzero.1, hzero.2, drop_zero, drop_zero]
    · have hsucc : serial - base = serial - (base + 1) + 1 := by omega
      rw [if_neg (by simpa using hle), hsucc, drop_succ_cons]

variable {c : Collected} {s : History}

theorem Follows.counted (h : Follows c s) (hclosed : c.pipeline.diagnosticBoundary = false) (hne : s.entries ≠ [])
    (recording : Recording) :
    ∃ more peak, Follows { c with
        pipeline := c.pipeline.counted recording
        recorded := fun cell => c.recorded cell + recording.more cell } (step 1 s (.grow more peak)) := by
  obtain ⟨entries, entry, hentries⟩ := eq_nil_or_concat' s.entries |>.resolve_left hne
  have hrecent := h.recent
  rw [hentries, map_append, map_singleton, recentLimit, rtake_concat_succ] at hrecent
  obtain ⟨items, lasts, hitems, hmap, hlast⟩ := map_eq_append_iff.mp hrecent
  obtain ⟨item, rfl, hbucket⟩ := map_eq_singleton_iff.mp hlast
  have hgrown : (step 1 s (.grow recording.more (recording.peak entry.bucket.peak))).entries =
      entries ++ [entry.grow recording.more (recording.peak entry.bucket.peak)] := by
    change (s.grow recording.more (recording.peak entry.bucket.peak)).entries = _
    unfold History.grow
    rw [hentries]
    exact modify_concat _ _ _
  have hserial : entry.bucket.serial = s.entries.length := by
    have hget : s.entries[entries.length]? = some entry := by rw [hentries, getElem?_concat_length]
    have := h.sound.serial _ _ hget
    rw [this, hentries, length_append, length_singleton, Nat.add_comm]
  have hcursor : s.cursor.serial < s.entries.length := (h.closed hclosed).resolve_left hne
  refine ⟨recording.more, recording.peak entry.bucket.peak, ?_⟩
  constructor
  · exact h.sound.step _
  · rw [hgrown]
    unfold Pipeline.counted
    dsimp only
    rw [hitems, modify_concat, map_append, map_append, map_singleton, map_singleton, recentLimit,
      rtake_concat_succ, hmap]
    unfold SecondBucket.add Entry.grow
    rw [hbucket]
  · rw [hgrown, length_append, length_singleton]
    have hlength := h.sequence
    rwa [hentries, length_append, length_singleton] at hlength
  · exact h.cursor
  · exact h.returned
  · exact h.gapped
  · intro cell
    have hrecorded := h.recorded cell
    rw [hentries, total_concat] at hrecorded
    rw [hgrown, total_concat]
    unfold Entry.grow
    dsimp only
    omega
  · exact h.upTo
  · intro other hother hat
    rw [hgrown] at hother
    rcases mem_append.mp hother with hother | hother
    · exact h.settled other (hentries ▸ mem_append_left _ hother) hat
    · rw [mem_singleton.mp hother] at hat
      have hat' : entry.bucket.serial = s.cursor.serial := hat
      omega
  · intro _
    right
    rw [hgrown, length_append, length_singleton]
    rw [hentries, length_append, length_singleton] at hcursor
    exact hcursor

theorem Follows.opened (h : Follows c s) (second : ℤ) :
    Follows { c with pipeline := c.pipeline.opened second } (step 1 s (.next (fun _ => 0) fun _ => 0)) := by
  have hcursor : s.cursor.serial ≤ s.entries.length := by
    by_cases hnone : s.cursor.last = none
    · rw [h.sound.start hnone]
      exact Nat.zero_le _
    · have := h.sound.reached (Option.isSome_iff_ne_none.mpr hnone)
      omega
  have hopened : (step 1 s (.next (fun _ => 0) fun _ => 0)).entries =
      s.entries ++ [{ bucket := ⟨1 + s.entries.length, fun _ => 0, fun _ => 0⟩ }] := rfl
  constructor
  · exact h.sound.step _
  · rw [hopened, map_append, map_singleton]
    unfold Pipeline.opened
    dsimp only
    rw [recentLimit, rtake_concat_succ, rtake_concat_succ, map_append, map_singleton,
      Selection.map_rtake, h.recent, Selection.rtake_rtake, h.sequence, Nat.add_comm]
    rfl
  · rw [hopened, length_append, length_singleton, ← h.sequence]
    rfl
  · exact h.cursor
  · exact h.returned
  · exact h.gapped
  · intro cell
    rw [hopened, total_concat, h.recorded cell]
    rfl
  · exact h.upTo
  · intro other hother hat
    rw [hopened] at hother
    rcases mem_append.mp hother with hother | hother
    · exact h.settled other hother hat
    · rw [mem_singleton.mp hother] at hat
      have hat' : 1 + s.entries.length = s.cursor.serial := hat
      omega
  · intro _
    right
    rw [hopened, length_append, length_singleton]
    have hsame : (step 1 s (.next (fun _ => 0) fun _ => 0)).cursor = s.cursor := rfl
    rw [hsame]
    omega

theorem Follows.record (h : Follows c s) (recording : Recording) :
    ∃ actions, Along (step 1) Unbroken s actions ∧ Follows (collect c (.record recording)) (run (step 1) s actions) := by
  unfold collect Pipeline.record
  by_cases hcount : recording.count ≤ 0
  · refine ⟨[], along_nil, ?_⟩
    simp only [hcount, if_true, Nat.add_zero]
    exact h
  · simp only [hcount, if_false]
    by_cases hopens : c.pipeline.opens recording.second = true
    · have hopened := h.opened recording.second
      obtain ⟨more, peak, hcounted⟩ := hopened.counted rfl (by simp [step, History.next]) recording
      refine ⟨[.next (fun _ => 0) fun _ => 0, .grow more peak], ⟨trivial, trivial, along_nil⟩, ?_⟩
      rw [if_pos hopens]
      exact hcounted
    · unfold Pipeline.opens at hopens
      cases hlast : c.pipeline.recent.getLast? with
      | none =>
        rw [hlast] at hopens
        exact absurd rfl hopens
      | some item =>
        rw [hlast, Option.all_some, Bool.not_eq_true, Bool.or_eq_false_iff] at hopens
        have hne : s.entries ≠ [] := by
          intro hnil
          have hrecent := h.recent
          rw [hnil, map_nil, rtake_nil, map_eq_nil_iff] at hrecent
          rw [hrecent] at hlast
          cases hlast
        obtain ⟨more, peak, hcounted⟩ := h.counted hopens.2 hne recording
        refine ⟨[.grow more peak], ⟨trivial, along_nil⟩, ?_⟩
        have hnot : c.pipeline.opens recording.second = false := by
          unfold Pipeline.opens
          rw [hlast, Option.all_some, hopens.1, hopens.2]
          rfl
        rw [hnot]
        exact hcounted

theorem Follows.window (h : Follows c s) :
    ∃ skip, c.pipeline.buckets c.cursor = s.window skip ∧ (s.entries.length ≤ skip → s.entries = []) := by
  have hcursor : s.cursor.serial ≤ s.entries.length := by
    by_cases hnone : s.cursor.last = none
    · rw [h.sound.start hnone]
      exact Nat.zero_le _
    · have := h.sound.reached (Option.isSome_iff_ne_none.mpr hnone)
      omega
  have hnumbered : ∀ (i : ℕ) (bucket : Bucket), ((s.entries.map Entry.bucket).rtake recentLimit)[i]? = some bucket →
      bucket.serial = (1 + (s.entries.length - recentLimit)) + i := by
    intro i bucket hi
    rw [rtake, getElem?_drop, length_map, getElem?_map, Option.map_eq_some_iff] at hi
    obtain ⟨entry, hentry, rfl⟩ := hi
    rw [h.sound.serial _ _ hentry, Nat.add_assoc]
  refine ⟨s.entries.length - recentLimit + (s.cursor.serial - (1 + (s.entries.length - recentLimit))), ?_, fun hskip => ?_⟩
  · unfold Pipeline.buckets History.window
    rw [h.recent, h.cursor, filter_numbered hnumbered, rtake, length_map, drop_drop, map_drop]
  · apply eq_nil_of_length_eq_zero
    unfold recentLimit at hskip
    omega

theorem Follows.diagnose (h : Follows c s) :
    ∃ actions, Along (step 1) Unbroken s actions ∧ Follows (collect c .diagnose) (run (step 1) s actions) := by
  obtain ⟨skip, hwindow, hempty⟩ := h.window
  refine ⟨[.take skip], ⟨fun _ _ _ => h.settled, along_nil⟩, ?_⟩
  change Follows _ (s.take skip)
  have htaken : c.cursor.take (c.pipeline.buckets c.cursor) = s.cursor.take (s.window skip) := by rw [hwindow, h.cursor]
  unfold collect
  dsimp only
  rw [htaken]
  constructor
  · exact h.sound.take skip
  · rw [buckets_take]
    exact h.recent
  · rw [length_take]
    exact h.sequence
  · rfl
  · rw [h.returned]
    rfl
  · rw [h.gapped]
    rfl
  · intro cell
    rw [total_eq, buckets_take, ← total_eq]
    exact h.recorded cell
  · intro cell
    unfold History.take
    dsimp only
    rw [h.recorded cell]
    split_ifs with hnothing
    · have hnil : s.entries = [] := by
        apply hempty
        unfold History.window at hnothing
        rwa [List.isEmpty_iff, List.map_eq_nil_iff, List.drop_eq_nil_iff] at hnothing
      rw [h.sound.idle hnil, hnil]
      rfl
    · rfl
  · intro entry hentry hat
    by_cases hskip : skip < s.entries.length
    · exact known_take h.sound hskip hentry hat
    · rw [take_nil (not_lt.mp hskip)] at hentry hat ⊢
      exact h.settled entry hentry hat
  · intro hopen
    cases hopen

theorem follows_run (actions : List Collecting) :
    ∃ steps, Along (step 1) Unbroken {} steps ∧ Follows (run collect {} actions) (run (step 1) {} steps) := by
  induction actions using reverseRecOn with
  | nil => exact ⟨[], along_nil, Follows.new⟩
  | append_singleton actions action ih =>
    obtain ⟨steps, halong, hfollows⟩ := ih
    have hstep : ∃ more, Along (step 1) Unbroken (run (step 1) {} steps) more ∧
        Follows (collect (run collect {} actions) action) (run (step 1) (run (step 1) {} steps) more) := by
      cases action with
      | record recording => exact hfollows.record recording
      | diagnose => exact hfollows.diagnose
    obtain ⟨more, hmore, hfollows'⟩ := hstep
    refine ⟨steps ++ more, along_append.mpr ⟨halong, hmore⟩, ?_⟩
    rw [run_append, run_append]
    exact hfollows'

/-! ### The laws -/

/-- **What is counted is returned once.** Of a bucket of any history no more is returned than was counted in it, and in
all no more than was counted. Without a gap everything that was counted up to the last take is returned, if at every take
that begins right after the bucket at the cursor that bucket is as it was taken, as in what the pipeline records. -/
theorem pipeline_buckets_returned_once :
    (∀ (base : ℕ) (steps : List Step),
      (∀ cell, (run (step base) {} steps).returned cell =
        ((run (step base) {} steps).entries.map fun entry => entry.returned cell).sum) ∧
      (∀ entry ∈ (run (step base) {} steps).entries, ∀ cell, entry.returned cell ≤ entry.bucket.count cell) ∧
      (∀ cell, (run (step base) {} steps).returned cell ≤ total (run (step base) {} steps).entries cell) ∧
      (Along (step base) Unbroken {} steps → (run (step base) {} steps).gapped = false →
        ∀ cell, (run (step base) {} steps).returned cell = (run (step base) {} steps).upTo cell)) ∧
    ∀ actions : List Collecting,
      (∀ cell, (run collect {} actions).returned cell ≤ (run collect {} actions).recorded cell) ∧
      ((run collect {} actions).gapped = false →
        ∀ cell, (run collect {} actions).returned cell = (run collect {} actions).upTo cell) := by
  constructor
  · intro base steps
    have hsound := sound_run base steps
    refine ⟨hsound.sum, fun entry hentry => (hsound.entry entry hentry).le_count, hsound.returned_le, ?_⟩
    exact fun halong hgap => (exact_run halong hgap).upTo
  · intro actions
    obtain ⟨steps, halong, hfollows⟩ := follows_run actions
    refine ⟨fun cell => ?_, fun hgap cell => ?_⟩
    · rw [hfollows.returned, hfollows.recorded]
      exact hfollows.sound.returned_le cell
    · rw [hfollows.gapped] at hgap
      rw [hfollows.returned, hfollows.upTo, (exact_run halong hgap).upTo]

/-- A bucket is taken, grows, and is taken again before it is passed. -/
def caughtUp : List Step :=
  [.next (fun _ => 5) fun _ => 0, .take 0, .grow (fun _ => 3) fun _ => 0, .take 0, .next (fun _ => 1) fun _ => 0, .take 1]

/-- Nine were counted, and nine returned. -/
theorem pipeline_buckets_returned_once_caughtUp :
    (run (step 1) {} caughtUp).returned (.counter .processed) = 9 := by
  have halong : Along (step 1) Unbroken {} caughtUp := by
    refine ⟨trivial, ?_, trivial, ?_, trivial, ?_, trivial⟩
    · rintro _ ⟨⟩ - entry hentry hat
      obtain rfl := mem_singleton.mp hentry
      cases hat
    · rintro _ ⟨⟩ hnext
      cases hnext
    · rintro _ ⟨⟩ - entry hentry hat cell
      rcases mem_cons.mp hentry with rfl | hentry
      · cases cell <;> rfl
      · obtain rfl := mem_singleton.mp hentry
        cases hat
  exact ((pipeline_buckets_returned_once.1 1 caughtUp).2.2.2 halong rfl _).trans rfl

/-- A bucket is taken, grows, and is passed by. -/
def passedBy : List Step :=
  [.next (fun _ => 5) fun _ => 0, .take 0, .grow (fun _ => 3) fun _ => 0, .next (fun _ => 1) fun _ => 0, .take 1]

/-- **What a bucket counts after its take is lost**, without a gap, when the next take begins right after it. -/
theorem lost_after_take :
    (run (step 1) {} passedBy).gapped = false ∧ (run (step 1) {} passedBy).returned (.counter .processed) = 6 ∧
      (run (step 1) {} passedBy).upTo (.counter .processed) = 9 := ⟨rfl, rfl, rfl⟩

end SignalArcade.Diagnostics
