import Mathlib.Algebra.GroupWithZero.Nat
import Mathlib.Algebra.Order.BigOperators.Group.List
import Mathlib.Algebra.Order.Group.Nat
import Mathlib.Algebra.Order.Ring.Rat
import SignalArcade.Lib.Runs

/-!
# The cursor of the pipeline

What the event pipeline does is counted in buckets, one for each second. `PipelineCursor.take` is given the latest
buckets and returns what was counted in them since the last time, also in the last bucket it was given then, which may
have grown. It tells of a `gap` when the buckets do not follow on those it knows.
-/

namespace SignalArcade.Diagnostics

/-! ### Buckets -/

/-- `COUNTERS`. -/
inductive Counter where
  | enqueued | processed | shed | expired | reordered | lagCount | criticalCount
  deriving DecidableEq

/-- The two histograms. -/
inductive Histogram where
  | lag | critical
  deriving DecidableEq

/-- `MAXIMA`. -/
inductive Maximum where
  | lagMax | criticalLagMax | queueMax

/-- What is counted: a counter, or a cell of a histogram. -/
inductive Cell where
  | counter (counter : Counter)
  | bar (histogram : Histogram) (index : Fin 9)
  deriving DecidableEq

/-- A bucket of counts and of maxima. -/
structure Bucket where
  serial : ℕ
  count : Cell → ℕ
  peak : Maximum → ℚ

/-- The result of a take. -/
structure Totals where
  count : Cell → ℕ := fun _ => 0
  peak : Maximum → ℚ := fun _ => 0

/-- What a reader has taken last. -/
structure PipelineCursor where
  serial : ℕ := 0
  last : Option Bucket := none

namespace PipelineCursor

variable (cursor : PipelineCursor)

/-- What the cursor knows of the bucket it was given last. -/
def known (cell : Cell) : ℕ := cursor.last.elim 0 fun bucket => bucket.count cell

/-- `previous.get(key, 0)`. -/
def previous (item : Bucket) (cell : Cell) : ℕ := if item.serial = cursor.serial then cursor.known cell else 0

/-- `max(0, item[key] - previous[key])`: the counts are natural numbers, and so is what is left of them. -/
def increment (item : Bucket) (cell : Cell) : ℕ := item.count cell - cursor.previous item cell

/-- The loop over the buckets. -/
def absorb (result : Totals) (item : Bucket) : Totals :=
  if item.serial < cursor.serial then result
  else
    { count := fun cell => result.count cell + cursor.increment item cell
      peak := fun maximum =>
        if cursor.previous item (.counter .processed) < item.count (.counter .processed) then
          max (result.peak maximum) (item.peak maximum)
        else result.peak maximum }

def gap (buckets : List Bucket) : Bool := buckets.head?.any fun bucket => cursor.serial + 1 < bucket.serial

def advanced (buckets : List Bucket) : PipelineCursor :=
  buckets.getLast?.elim cursor fun bucket => ⟨bucket.serial, some bucket⟩

def take (buckets : List Bucket) : (Totals × Bool) × PipelineCursor :=
  ((buckets.foldl cursor.absorb {}, cursor.gap buckets), cursor.advanced buckets)

end PipelineCursor

/-! ### Histories -/

/-- A bucket of the history, and what was returned of it. -/
structure Entry where
  bucket : Bucket
  returned : Cell → ℕ := fun _ => 0

/-- More is counted in a bucket. -/
def Entry.grow (entry : Entry) (more : Cell → ℕ) (peak : Maximum → ℚ) : Entry :=
  { entry with bucket := { entry.bucket with count := fun cell => entry.bucket.count cell + more cell, peak := peak } }

/-- What a take returns of a bucket it is given. -/
def Entry.note (cursor : PipelineCursor) (entry : Entry) : Entry :=
  if entry.bucket.serial < cursor.serial then entry
  else { entry with returned := fun cell => entry.returned cell + cursor.increment entry.bucket cell }

/-- The history, the cursor, and what the takes returned. -/
structure History where
  entries : List Entry := []
  cursor : PipelineCursor := {}
  /-- The sum over all takes. -/
  returned : Cell → ℕ := fun _ => 0
  /-- Some take told of a gap. -/
  gapped : Bool := false
  /-- What had been counted at the last take that was given a bucket. -/
  upTo : Cell → ℕ := fun _ => 0

/-- What was counted. -/
def total (entries : List Entry) (cell : Cell) : ℕ := (entries.map fun entry => entry.bucket.count cell).sum

/-- A step of the pipeline or its reader. -/
inductive Step where
  | next (count : Cell → ℕ) (peak : Maximum → ℚ)
  /-- The last bucket grows. -/
  | grow (more : Cell → ℕ) (peak : Maximum → ℚ)
  /-- A take of the buckets that are left when so many are skipped. -/
  | take (skip : ℕ)

namespace History

variable (base : ℕ) (s : History)

/-- The next bucket, where the first one has the number `base`. -/
def next (count : Cell → ℕ) (peak : Maximum → ℚ) : History :=
  { s with entries := s.entries ++ [{ bucket := ⟨base + s.entries.length, count, peak⟩ }] }

/-- The last bucket grows. -/
def grow (more : Cell → ℕ) (peak : Maximum → ℚ) : History :=
  { s with entries := s.entries.modify (s.entries.length - 1) fun entry => entry.grow more peak }

/-- The buckets that a take is given when so many are skipped. -/
def window (skip : ℕ) : List Bucket := (s.entries.drop skip).map Entry.bucket

def take (skip : ℕ) : History where
  entries := s.entries.take skip ++ (s.entries.drop skip).map (Entry.note s.cursor)
  cursor := (s.cursor.take (s.window skip)).2
  returned := fun cell => s.returned cell + (s.cursor.take (s.window skip)).1.1.count cell
  gapped := s.gapped || (s.cursor.take (s.window skip)).1.2
  upTo := if (s.window skip).isEmpty then s.upTo else total s.entries

end History

variable (base : ℕ)

/-- A second passes, fills up, or is read. -/
def step (s : History) : Step → History
  | .next count peak => s.next base count peak
  | .grow more peak => s.grow more peak
  | .take skip => s.take skip

/-- The bucket at the cursor did not grow in secret: when the buckets that are taken begin right after it, it is as it was
when it was taken itself. -/
def Unbroken (s : History) : Step → Prop
  | .take skip => ∀ first ∈ (s.entries.drop skip).head?, first.bucket.serial = s.cursor.serial + 1 →
      ∀ entry ∈ s.entries, entry.bucket.serial = s.cursor.serial → ∀ cell, entry.bucket.count cell = s.cursor.known cell
  | _ => True

/-! ### What a take returns -/

variable {base} {s : History} {cursor : PipelineCursor} {entry : Entry} {entries : List Entry}

theorem foldl_absorb (result : Totals) (cell : Cell) :
    ((entries.map Entry.bucket).foldl cursor.absorb result).count cell + (entries.map fun entry => entry.returned cell).sum =
      result.count cell + ((entries.map (Entry.note cursor)).map fun entry => entry.returned cell).sum := by
  induction entries generalizing result with
  | nil => simp
  | cons entry entries ih =>
    have hih := ih (cursor.absorb result entry.bucket)
    have hnote : (cursor.absorb result entry.bucket).count cell + entry.returned cell =
        result.count cell + (Entry.note cursor entry).returned cell := by
      unfold PipelineCursor.absorb Entry.note
      by_cases hpast : entry.bucket.serial < cursor.serial
      · rw [if_pos hpast, if_pos hpast]
      · rw [if_neg hpast, if_neg hpast]
        dsimp only
        omega
    simp only [List.map_cons, List.foldl_cons, List.sum_cons] at hih ⊢
    omega

theorem note_bucket : (Entry.note cursor entry).bucket = entry.bucket := by
  unfold Entry.note
  split_ifs <;> rfl

/-! ### Nothing is returned twice -/

/-- What was returned of a bucket: nothing if the cursor has not come to it, of the bucket at the cursor at most what the
cursor knows of it, and of any bucket at most what was counted in it. -/
structure Entry.Sound (cursor : PipelineCursor) (entry : Entry) : Prop where
  ahead : cursor.serial < entry.bucket.serial → ∀ cell, entry.returned cell = 0
  at_cursor : entry.bucket.serial = cursor.serial →
    ∀ cell, entry.returned cell ≤ cursor.known cell ∧ cursor.known cell ≤ entry.bucket.count cell
  le_count : ∀ cell, entry.returned cell ≤ entry.bucket.count cell

/-- The buckets are numbered, the cursor is at one of them or at the start, and what was returned is what was returned of
the buckets. -/
structure Sound (base : ℕ) (s : History) : Prop where
  serial : ∀ (i : ℕ) (entry : Entry), s.entries[i]? = some entry → entry.bucket.serial = base + i
  start : s.cursor.last = none → s.cursor.serial = 0
  reached : s.cursor.last.isSome → s.cursor.serial < base + s.entries.length
  entry : ∀ entry ∈ s.entries, entry.Sound s.cursor
  sum : ∀ cell, s.returned cell = (s.entries.map fun entry => entry.returned cell).sum
  idle : s.entries = [] → ∀ cell, s.upTo cell = 0

theorem Sound.new : Sound base {} where
  serial i entry h := by simp at h
  start _ := rfl
  reached h := by cases h
  entry entry h := by simp at h
  sum _ := rfl
  idle _ _ := rfl

theorem Entry.Sound.grow (h : entry.Sound cursor) (more : Cell → ℕ) (peak : Maximum → ℚ) :
    (entry.grow more peak).Sound cursor := by
  refine ⟨h.ahead, fun hserial cell => ?_, fun cell => (h.le_count cell).trans (Nat.le_add_right _ _)⟩
  obtain ⟨hreturned, hknown⟩ := h.at_cursor hserial cell
  exact ⟨hreturned, hknown.trans (Nat.le_add_right _ _)⟩

theorem Entry.Sound.note_le (h : entry.Sound cursor) (cell : Cell) :
    (Entry.note cursor entry).returned cell ≤ entry.bucket.count cell := by
  unfold Entry.note
  split_ifs with hpast
  · exact h.le_count cell
  · unfold PipelineCursor.increment PipelineCursor.previous
    split_ifs with hat
    · have hcursor := h.at_cursor hat cell
      dsimp only
      omega
    · have hahead := h.ahead (by omega) cell
      dsimp only
      omega

theorem mem_modify {f : Entry → Entry} {i : ℕ} (h : entry ∈ entries.modify i f) :
    entry ∈ entries ∨ ∃ old ∈ entries, entry = f old := by
  obtain ⟨j, hj⟩ := List.mem_iff_getElem?.mp h
  rw [List.getElem?_modify, Option.map_eq_map, Option.map_eq_some_iff] at hj
  obtain ⟨old, hold, heq⟩ := hj
  have hmem : old ∈ entries := List.mem_of_getElem? hold
  split_ifs at heq
  · exact .inr ⟨old, hmem, heq.symm⟩
  · exact .inl (heq ▸ hmem)

theorem sum_modify {f : Entry → Entry} (hf : ∀ entry, (f entry).returned = entry.returned) (i : ℕ) (cell : Cell) :
    ((entries.modify i f).map fun entry => entry.returned cell).sum = (entries.map fun entry => entry.returned cell).sum := by
  have hmap : (entries.modify i f).map (fun entry => entry.returned cell) = entries.map fun entry => entry.returned cell := by
    apply List.ext_getElem?
    intro j
    rw [List.getElem?_map, List.getElem?_map, List.getElem?_modify, Option.map_eq_map, Option.map_map]
    congr 1
    funext entry
    simp only [Function.comp_apply]
    split_ifs
    · rw [hf]
    · rfl
  rw [hmap]

theorem getElem?_taken {skip i : ℕ} (h : (s.entries.take skip ++ (s.entries.drop skip).map (Entry.note s.cursor))[i]? = some entry) :
    ∃ old, s.entries[i]? = some old ∧ entry = if i < skip then old else Entry.note s.cursor old := by
  have hlength : i < s.entries.length := by
    have hbound := (List.getElem?_eq_some_iff.mp h).1
    rw [List.length_append, List.length_take, List.length_map, List.length_drop] at hbound
    omega
  by_cases hi : i < skip
  · rw [List.getElem?_append_left (by rw [List.length_take]; omega), List.getElem?_take_of_lt hi] at h
    exact ⟨entry, h, by rw [if_pos hi]⟩
  · have htake : (s.entries.take skip).length = skip := by
      rw [List.length_take]
      omega
    rw [List.getElem?_append_right (by omega), htake, List.getElem?_map, List.getElem?_drop, Option.map_eq_some_iff] at h
    obtain ⟨old, hold, rfl⟩ := h
    rw [Nat.add_sub_cancel' (not_lt.mp hi)] at hold
    exact ⟨old, hold, by rw [if_neg hi]⟩

theorem take_nil {skip : ℕ} (h : s.entries.length ≤ skip) : s.take skip = s := by
  have hdrop : s.entries.drop skip = [] := List.drop_eq_nil_of_le h
  have htake : s.entries.take skip = s.entries := List.take_of_length_le h
  unfold History.take History.window
  simp [hdrop, htake, PipelineCursor.take, PipelineCursor.gap, PipelineCursor.advanced]

theorem cursor_take (h : Sound base s) {skip : ℕ} (hskip : skip < s.entries.length) :
    ∃ last, s.entries[s.entries.length - 1]? = some last ∧
      (s.take skip).cursor = ⟨base + (s.entries.length - 1), some last.bucket⟩ := by
  obtain ⟨last, hlast⟩ : ∃ last, s.entries[s.entries.length - 1]? = some last :=
    ⟨_, List.getElem?_eq_getElem (by omega)⟩
  refine ⟨last, hlast, ?_⟩
  unfold History.take History.window PipelineCursor.take PipelineCursor.advanced
  rw [List.getLast?_map, List.getLast?_drop, if_neg (by omega), List.getLast?_eq_getElem?, hlast]
  simp [h.serial _ _ hlast]

theorem length_take (skip : ℕ) : (s.take skip).entries.length = s.entries.length := by
  unfold History.take
  rw [List.length_append, List.length_take, List.length_map, List.length_drop]
  omega

theorem Sound.next (h : Sound base s) (count : Cell → ℕ) (peak : Maximum → ℚ) : Sound base (s.next base count peak) := by
  unfold History.next
  constructor
  · intro i entry hi
    by_cases hlt : i < s.entries.length
    · exact h.serial i entry (by rwa [← List.getElem?_append_left hlt])
    · rw [List.getElem?_append_right (not_lt.mp hlt), List.getElem?_singleton] at hi
      split_ifs at hi with hzero
      have hi' : i = s.entries.length := by omega
      rw [← Option.some.inj hi, hi']
  · exact h.start
  · intro hsome
    have hreached : s.cursor.serial < base + s.entries.length := h.reached hsome
    rw [List.length_append, List.length_singleton]
    dsimp only
    omega
  · intro entry hentry
    rcases List.mem_append.mp hentry with hentry | hentry
    · exact h.entry entry hentry
    · rw [List.mem_singleton.mp hentry]
      refine ⟨fun _ _ => rfl, fun hat cell => ⟨Nat.zero_le _, ?_⟩, fun _ => Nat.zero_le _⟩
      -- the cursor is at a bucket that is not there yet only at the start, where it knows nothing
      have hnone : s.cursor.last = none := by
        by_contra hsome
        have hreached := h.reached (Option.isSome_iff_ne_none.mpr hsome)
        dsimp only at hat
        omega
      unfold PipelineCursor.known
      rw [hnone]
      exact Nat.zero_le _
  · intro cell
    rw [List.map_append, List.sum_append]
    simpa using h.sum cell
  · intro hnil
    simp at hnil

theorem Sound.grow (h : Sound base s) (more : Cell → ℕ) (peak : Maximum → ℚ) : Sound base (s.grow more peak) := by
  unfold History.grow
  constructor
  · intro i entry hi
    rw [List.getElem?_modify, Option.map_eq_map, Option.map_eq_some_iff] at hi
    obtain ⟨old, hold, rfl⟩ := hi
    rw [← h.serial i old hold]
    split_ifs <;> rfl
  · exact h.start
  · rw [List.length_modify]
    exact h.reached
  · intro entry hentry
    rcases mem_modify hentry with hentry | ⟨old, hold, rfl⟩
    · exact h.entry entry hentry
    · exact (h.entry old hold).grow more peak
  · intro cell
    have hreturned : ∀ entry : Entry, (entry.grow more peak).returned = entry.returned := fun _ => rfl
    dsimp only
    rw [sum_modify hreturned, h.sum]
  · intro hnil
    apply h.idle
    have hlength := congrArg List.length hnil
    rw [List.length_modify] at hlength
    exact List.eq_nil_of_length_eq_zero hlength

theorem serial_take (h : Sound base s) {skip i : ℕ} (hi : (s.take skip).entries[i]? = some entry) :
    entry.bucket.serial = base + i := by
  obtain ⟨old, hold, rfl⟩ := getElem?_taken hi
  rw [← h.serial i old hold]
  split_ifs
  · rfl
  · rw [note_bucket]

theorem buckets_take (skip : ℕ) : (s.take skip).entries.map Entry.bucket = s.entries.map Entry.bucket := by
  unfold History.take
  rw [List.map_append, List.map_map]
  simp only [Function.comp_def, note_bucket]
  rw [← List.map_append, List.take_append_drop]

theorem total_eq (entries : List Entry) (cell : Cell) :
    total entries cell = ((entries.map Entry.bucket).map fun bucket => bucket.count cell).sum := by
  unfold total
  rw [List.map_map]
  rfl

theorem known_take (h : Sound base s) {skip : ℕ} (hskip : skip < s.entries.length) (hentry : entry ∈ (s.take skip).entries)
    (hat : entry.bucket.serial = (s.take skip).cursor.serial) (cell : Cell) :
    entry.bucket.count cell = (s.take skip).cursor.known cell := by
  obtain ⟨last, hlast, hcursor⟩ := cursor_take h hskip
  obtain ⟨i, hi⟩ := List.mem_iff_getElem?.mp hentry
  have hserial := serial_take h hi
  have hbuckets : ((s.take skip).entries.map Entry.bucket)[i]? = (s.entries.map Entry.bucket)[i]? := by rw [buckets_take]
  rw [hcursor] at hat ⊢
  have hindex : i = s.entries.length - 1 := by
    dsimp only at hat
    omega
  rw [List.getElem?_map, List.getElem?_map, hi, hindex, hlast] at hbuckets
  rw [Option.some.inj hbuckets]
  rfl

theorem Sound.take (h : Sound base s) (skip : ℕ) : Sound base (s.take skip) := by
  by_cases hskip : s.entries.length ≤ skip
  · rwa [take_nil hskip]
  obtain ⟨last, hlast, hcursor⟩ := cursor_take h (not_le.mp hskip)
  constructor
  · exact fun i entry hi => serial_take h hi
  · intro hnone
    rw [hcursor] at hnone
    cases hnone
  · intro _
    rw [hcursor, length_take]
    dsimp only
    omega
  · intro entry hentry'
    obtain ⟨i, hi⟩ := List.mem_iff_getElem?.mp hentry'
    have hbound := (List.getElem?_eq_some_iff.mp hi).1
    rw [length_take] at hbound
    have hnumber := serial_take h hi
    obtain ⟨old, hold, hentry⟩ := getElem?_taken hi
    have hbucket : entry.bucket = old.bucket := by
      rw [hentry]
      split_ifs
      · rfl
      · rw [note_bucket]
    have hle : ∀ cell, entry.returned cell ≤ entry.bucket.count cell := by
      intro cell
      have hold' := h.entry old (List.mem_of_getElem? hold)
      rw [hbucket, hentry]
      split_ifs
      · exact hold'.le_count cell
      · exact hold'.note_le cell
    refine ⟨fun hahead => ?_, fun hat cell => ?_, hle⟩
    · rw [hcursor] at hahead
      dsimp only at hahead
      omega
    · rw [← known_take h (not_le.mp hskip) hentry' hat cell]
      exact ⟨hle cell, le_refl _⟩
  · intro cell
    have hcount : ((s.window skip).foldl s.cursor.absorb {}).count cell +
        ((s.entries.drop skip).map fun entry => entry.returned cell).sum =
          0 + (((s.entries.drop skip).map (Entry.note s.cursor)).map fun entry => entry.returned cell).sum :=
      foldl_absorb {} cell
    have hsplit : (s.entries.map fun entry => entry.returned cell).sum =
        ((s.entries.take skip).map fun entry => entry.returned cell).sum +
          ((s.entries.drop skip).map fun entry => entry.returned cell).sum := by
      rw [← List.sum_append, ← List.map_append, List.take_append_drop]
    have hsum := h.sum cell
    unfold History.take PipelineCursor.take
    rw [List.map_append, List.sum_append]
    dsimp only
    omega
  · intro hnil
    have hzero := length_take (s := s) skip
    rw [hnil, List.length_nil] at hzero
    omega

/-- **Nothing is returned twice**, whatever the buckets a take is given. -/
theorem Sound.step (h : Sound base s) (action : Step) : Sound base (step base s action) := by
  cases action with
  | next count peak => exact h.next count peak
  | grow more peak => exact h.grow more peak
  | take skip => exact h.take skip

/-! ### Everything is returned -/

/-- Everything that was counted in the buckets up to the cursor, as far as it knows of its own, was returned. -/
structure Exact (s : History) : Prop where
  past : ∀ entry ∈ s.entries, entry.bucket.serial < s.cursor.serial →
    ∀ cell, entry.returned cell = entry.bucket.count cell
  at_cursor : ∀ entry ∈ s.entries, entry.bucket.serial = s.cursor.serial →
    ∀ cell, entry.returned cell = s.cursor.known cell
  upTo : ∀ cell, s.returned cell = s.upTo cell

theorem Exact.new : Exact {} where
  past entry h := by simp at h
  at_cursor entry h := by simp at h
  upTo _ := rfl

theorem Exact.next (hexact : Exact s) (h : Sound base s) (count : Cell → ℕ) (peak : Maximum → ℚ) :
    Exact (s.next base count peak) := by
  have hsound := (h.next count peak).entry
  unfold History.next at hsound ⊢
  constructor
  · intro entry hentry hpast
    rcases List.mem_append.mp hentry with hentry | hentry
    · exact hexact.past entry hentry hpast
    · rw [List.mem_singleton.mp hentry] at hpast
      -- the new bucket is not behind the cursor
      have hnone : s.cursor.last = none := by
        by_contra hsome
        have hreached := h.reached (Option.isSome_iff_ne_none.mpr hsome)
        dsimp only at hpast
        omega
      have hstart := h.start hnone
      dsimp only at hpast
      omega
  · intro entry hentry hat cell
    rcases List.mem_append.mp hentry with hentry' | hentry'
    · exact hexact.at_cursor entry hentry' hat cell
    · have hknown := ((hsound entry hentry).at_cursor hat cell).2
      rw [List.mem_singleton.mp hentry'] at hat ⊢
      have hnone : s.cursor.last = none := by
        by_contra hsome
        have hreached := h.reached (Option.isSome_iff_ne_none.mpr hsome)
        dsimp only at hat
        omega
      unfold PipelineCursor.known
      rw [hnone]
      rfl
  · exact hexact.upTo

theorem Exact.grow (hexact : Exact s) (h : Sound base s) (more : Cell → ℕ) (peak : Maximum → ℚ) :
    Exact (s.grow more peak) := by
  unfold History.grow
  constructor
  · intro entry hentry hpast cell
    obtain ⟨i, hi⟩ := List.mem_iff_getElem?.mp hentry
    rw [List.getElem?_modify, Option.map_eq_map, Option.map_eq_some_iff] at hi
    obtain ⟨old, hold, rfl⟩ := hi
    have hserial := h.serial i old hold
    have hlength := (List.getElem?_eq_some_iff.mp hold).1
    split_ifs at hpast ⊢ with hlast
    · -- the last bucket is not behind the cursor
      have hserial' : (old.grow more peak).bucket.serial = base + i := hserial
      have hsome : s.cursor.last.isSome := by
        rw [Option.isSome_iff_ne_none]
        intro hnone
        have hstart := h.start hnone
        dsimp only at hpast
        omega
      have hreached := h.reached hsome
      dsimp only at hpast
      omega
    · exact hexact.past old (List.mem_of_getElem? hold) hpast cell
  · intro entry hentry hat cell
    rcases mem_modify hentry with hentry | ⟨old, hold, rfl⟩
    · exact hexact.at_cursor entry hentry hat cell
    · exact hexact.at_cursor old hold hat cell
  · exact hexact.upTo

/-- **Without a gap everything is returned**, if the bucket at the cursor did not grow in secret. -/
theorem Exact.take (hexact : Exact s) (h : Sound base s) {skip : ℕ} (hunbroken : Unbroken s (.take skip))
    (hgap : (s.cursor.take (s.window skip)).1.2 = false) : Exact (s.take skip) := by
  by_cases hskip : s.entries.length ≤ skip
  · rwa [take_nil hskip]
  obtain ⟨first, hfirst⟩ : ∃ first, s.entries[skip]? = some first :=
    ⟨_, List.getElem?_eq_getElem (by omega)⟩
  have hhead : (s.entries.drop skip).head? = some first := by rw [List.head?_drop, hfirst]
  have hbegins : base + skip ≤ s.cursor.serial + 1 := by
    unfold PipelineCursor.take PipelineCursor.gap History.window at hgap
    rw [List.head?_map, hhead] at hgap
    have hserial := h.serial skip first hfirst
    simp only [Option.map_some, Option.any_some, decide_eq_false_iff_not] at hgap
    omega
  -- of every bucket all was returned
  have hall : ∀ entry ∈ (s.take skip).entries, ∀ cell, entry.returned cell = entry.bucket.count cell := by
    intro entry hentry cell
    obtain ⟨i, hi⟩ := List.mem_iff_getElem?.mp hentry
    obtain ⟨old, hold, rfl⟩ := getElem?_taken hi
    have hmem := List.mem_of_getElem? hold
    have hserial := h.serial i old hold
    have hsound := h.entry old hmem
    split_ifs with hskipped
    · rcases lt_or_eq_of_le (show old.bucket.serial ≤ s.cursor.serial by omega) with hpast | hat
      · exact hexact.past old hmem hpast cell
      · have hnext : first.bucket.serial = s.cursor.serial + 1 := by
          have := h.serial skip first hfirst
          omega
        rw [hexact.at_cursor old hmem hat cell, hunbroken first hhead hnext old hmem hat cell]
    · rw [note_bucket]
      unfold Entry.note
      split_ifs with hpast
      · exact hexact.past old hmem hpast cell
      · unfold PipelineCursor.increment PipelineCursor.previous
        split_ifs with hat
        · have hreturned := hexact.at_cursor old hmem hat cell
          have hknown := (hsound.at_cursor hat cell).2
          dsimp only
          omega
        · have hahead := hsound.ahead (by omega) cell
          dsimp only
          omega
  constructor
  · exact fun entry hentry _ cell => hall entry hentry cell
  · intro entry hentry hat cell
    rw [hall entry hentry cell]
    exact known_take h (not_le.mp hskip) hentry hat cell
  · intro cell
    have hnonempty : (s.window skip).isEmpty = false := by
      unfold History.window
      rw [List.isEmpty_eq_false_iff, ne_eq, List.map_eq_nil_iff, List.drop_eq_nil_iff]
      exact hskip
    have hupTo : (s.take skip).upTo = total s.entries := by
      unfold History.take
      rw [hnonempty]
      rfl
    rw [(h.take skip).sum cell, hupTo, List.map_congr_left fun entry hentry => hall entry hentry cell, total_eq,
      ← buckets_take skip, ← total_eq]
    rfl

theorem Exact.step (hexact : Exact s) (h : Sound base s) {action : Step} (hunbroken : Unbroken s action)
    (hgap : (step base s action).gapped = false) : Exact (step base s action) := by
  cases action with
  | next count peak => exact hexact.next h count peak
  | grow more peak => exact hexact.grow h more peak
  | take skip =>
    apply hexact.take h hunbroken
    exact (Bool.or_eq_false_iff.mp hgap).2

/-! ### Runs -/

open Runs

theorem Sound.returned_le (h : Sound base s) (cell : Cell) : s.returned cell ≤ total s.entries cell := by
  rw [h.sum cell]
  unfold total
  apply List.sum_le_sum
  exact fun entry hentry => (h.entry entry hentry).le_count cell

theorem gapped_of_step {action : Step} (h : (step base s action).gapped = false) : s.gapped = false := by
  cases action with
  | next count peak => exact h
  | grow more peak => exact h
  | take skip => exact (Bool.or_eq_false_iff.mp h).1

theorem sound_run (base : ℕ) (actions : List Step) : Sound base (run (step base) {} actions) :=
  run_invariant Sound.new fun _ action h => h.step action

theorem exact_run {actions : List Step} (h : Along (step base) Unbroken {} actions)
    (hgap : (run (step base) {} actions).gapped = false) : Exact (run (step base) {} actions) := by
  have hinvariant : Sound base (run (step base) {} actions) ∧
      ((run (step base) {} actions).gapped = false → Exact (run (step base) {} actions)) := by
    apply h.invariant (I := fun s => Sound base s ∧ (s.gapped = false → Exact s))
    · exact ⟨Sound.new, fun _ => Exact.new⟩
    · rintro s action ⟨hsound, hexact⟩ hunbroken
      refine ⟨hsound.step action, fun hgap => ?_⟩
      exact (hexact (gapped_of_step hgap)).step hsound hunbroken hgap
  exact hinvariant.2 hgap

end SignalArcade.Diagnostics
