import MetadataRegistry.Config
import MetadataRegistry.Proofs.StoredTime
import MetadataRegistry.Service

/-!
Periods added to instants, and the cutoff of a sweep. A period leads to an instant of the same leap second, or out of
it: then it is counted in nanoseconds since 1970, and only the range of the instants bounds where it leads.
-/

namespace MetadataRegistry

theorem parts_of_of? {seconds : Int} {nanos : Nat} {instant : Instant}
    (valid : Instant.of? seconds nanos = some instant) : instant.seconds = seconds ∧ instant.nanos = nanos := by
  unfold Instant.of? at valid
  split at valid
  · cases valid
    exact ⟨rfl, rfl⟩
  · cases valid

namespace Instant

def LeavesLeap (instant : Instant) (period : Period) : Prop :=
  nanosPerSecond ≤ instant.nanos ∧ 2 * nanosPerSecond ≤ instant.nanos + period.nanos

def StaysInLeap (instant : Instant) (period : Period) : Prop :=
  nanosPerSecond ≤ instant.nanos ∧ nanosPerSecond ≤ instant.nanos + period.nanos ∧
    instant.nanos + period.nanos < 2 * nanosPerSecond

instance (instant : Instant) (period : Period) : Decidable (instant.LeavesLeap period) :=
  inferInstanceAs (Decidable (_ ∧ _))

instance (instant : Instant) (period : Period) : Decidable (instant.StaysInLeap period) :=
  inferInstanceAs (Decidable (_ ∧ _))

/-- Where a period leads, in nanoseconds since 1970. A leap second that is left forward counts as the second before. -/
def nanosAfter (instant : Instant) (period : Period) : Int :=
  instant.epochNanos + period.nanos - if instant.LeavesLeap period then nanosPerSecond else 0

variable {instant : Instant} {period : Period}

theorem not_leavesLeap_of_stays (stays : instant.StaysInLeap period) : ¬instant.LeavesLeap period :=
  fun leaves => Int.not_lt.mpr leaves.2 stays.2.2

theorem add?_eq (instant : Instant) (period : Period) :
    instant.add? period =
      if instant.StaysInLeap period then of? instant.seconds (instant.nanos + period.nanos).toNat
      else ofEpochNanos? (instant.nanosAfter period) := by
  have leap : instant.isLeapSecond = true ↔ nanosPerSecond ≤ instant.nanos := decide_eq_true_iff
  unfold add?
  dsimp only
  by_cases leaves : instant.LeavesLeap period
  · have outside : ¬instant.StaysInLeap period := fun stays => not_leavesLeap_of_stays stays leaves
    rw [if_pos ⟨leap.mpr leaves.1, leaves.2⟩, if_neg outside, nanosAfter, if_pos leaves]
  · rw [if_neg fun both => leaves ⟨leap.mp both.1, both.2⟩]
    by_cases stays : instant.StaysInLeap period
    · rw [if_pos ⟨leap.mpr stays.1, stays.2.1⟩, if_pos stays]
    · rw [if_neg fun both => stays ⟨leap.mp both.1, both.2, Int.not_le.mp fun far => leaves ⟨leap.mp both.1, far⟩⟩,
        if_neg stays, nanosAfter, if_neg leaves, Int.natCast_zero, Int.sub_zero]

theorem nanosAfter_of_stays (stays : instant.StaysInLeap period) :
    instant.nanosAfter period = instant.epochNanos + period.nanos := by
  rw [nanosAfter, if_neg (not_leavesLeap_of_stays stays), Int.natCast_zero, Int.sub_zero]

theorem epochNanos_of_add? {later : Instant} (reached : instant.add? period = some later) :
    later.epochNanos = instant.nanosAfter period := by
  rw [add?_eq] at reached
  split at reached
  · rename_i stays
    obtain ⟨seconds, nanos⟩ := parts_of_of? reached
    have forward := stays.2.1
    rw [nanosAfter_of_stays stays, epochNanos, epochNanos, seconds, nanos]
    omega
  · obtain ⟨seconds, nanos⟩ := parts_of_of? reached
    rw [epochNanos, seconds, nanos]
    simp only [nanosPerSecond]
    omega

theorem isSome_add?_iff (instant : Instant) (period : Period) :
    (instant.add? period).isSome = true ↔
      firstSecond * nanosPerSecond ≤ instant.nanosAfter period ∧
        (instant.nanosAfter period < (lastSecond + 1) * nanosPerSecond ∨ instant.StaysInLeap period) := by
  have within := instant.inRange
  have fraction := instant.fraction
  rw [add?_eq]
  by_cases stays : instant.StaysInLeap period
  · -- The leap second after the last second is no later second than the last, so it may be stayed in.
    have inside := stays
    rw [if_pos stays, of?_isSome_iff, nanosAfter_of_stays stays]
    unfold StaysInLeap at inside
    simp only [epochNanos, firstSecond, lastSecond, nanosPerSecond] at within fraction inside ⊢
    simp only [stays, or_true, and_true]
    omega
  · rw [if_neg stays, ofEpochNanos?, of?_isSome_iff]
    simp only [stays, or_false, firstSecond, lastSecond, nanosPerSecond]
    omega

theorem epochMillis_eq_div (instant : Instant) : instant.epochMillis = instant.epochNanos / nanosPerMilli := by
  unfold epochMillis epochNanos
  simp only [nanosPerSecond, nanosPerMilli]
  omega

end Instant

theorem epochNanos_of_sweepCutoff? {grace : Period} {now cutoff : Instant}
    (reckoned : sweepCutoff? grace now = some cutoff) : cutoff.epochNanos = now.nanosAfter (-grace) :=
  Instant.epochNanos_of_add? (Option.ite_none_right_eq_some.mp reckoned).2

theorem isSome_sweepCutoff?_iff (grace : Period) (now : Instant) :
    (sweepCutoff? grace now).isSome = true ↔ grace.nanos.natAbs ≤ Period.longest ∧
      firstSecond * nanosPerSecond ≤ now.nanosAfter (-grace) ∧
        (now.nanosAfter (-grace) < (lastSecond + 1) * nanosPerSecond ∨ now.StaysInLeap (-grace)) := by
  rw [← Instant.isSome_add?_iff, sweepCutoff?]
  split
  · rename_i possible
    rw [and_iff_right possible]
  · rename_i impossible
    exact iff_of_false Bool.noConfusion fun both => impossible both.1

theorem nanosAfter_of_backward {grace : Int} (backward : 0 ≤ grace) (now : Instant) :
    now.nanosAfter (-Period.seconds grace) = now.epochNanos - nanosPerSecond * grace := by
  have fraction := now.fraction
  have whole : (-Period.seconds grace).nanos = -(grace * nanosPerSecond) := rfl
  have stays : ¬now.LeavesLeap (-Period.seconds grace) := by
    unfold Instant.LeavesLeap
    rw [whole]
    simp only [nanosPerSecond] at fraction ⊢
    omega
  rw [Instant.nanosAfter, if_neg stays, whole]
  simp only [nanosPerSecond]
  omega

theorem epochMillis_of_sweepCutoff? {grace : Int} {now cutoff : Instant} (backward : 0 ≤ grace)
    (reckoned : sweepCutoff? (.seconds grace) now = some cutoff) :
    cutoff.epochMillis = now.epochMillis - 1000 * grace := by
  have back := (epochNanos_of_sweepCutoff? reckoned).trans (nanosAfter_of_backward backward now)
  rw [Instant.epochMillis_eq_div, Instant.epochMillis_eq_div, back]
  simp only [nanosPerSecond, nanosPerMilli]
  omega

theorem isSome_sweepCutoff?_seconds_iff {grace : Int} (backward : 0 ≤ grace) (now : Instant) :
    (sweepCutoff? (.seconds grace) now).isSome = true ↔
      grace ≤ longestGrace ∧ firstSecond * 1000 ≤ now.epochMillis - 1000 * grace := by
  have latest := now.inRange.2
  have fraction := now.fraction
  have whole : (Period.seconds grace).nanos = grace * nanosPerSecond := rfl
  rw [isSome_sweepCutoff?_iff, nanosAfter_of_backward backward, Instant.epochMillis_eq_div, whole,
    Instant.StaysInLeap, show (-Period.seconds grace).nanos = -(grace * nanosPerSecond) from rfl]
  simp only [Instant.epochNanos, Period.longest, longestGrace, firstSecond, lastSecond, nanosPerSecond,
    nanosPerMilli] at latest fraction ⊢
  omega

end MetadataRegistry
