import SignalArcade.Challenger.TournamentRuns

/-!
# The choice of the next contender

`_preferred_pending_version` goes through the waiting artifacts to the oldest one, from that to those which were trained
and validated on the same evidence, and from these to the newest linear and the newest nonlinear one, which it compares
if both name the same Policy population. The order in which the artifacts came to wait does not matter.
-/

namespace SignalArcade.Challenger

open Selection List
open ChallengerSkillArtifact
open Paper (Instant)

/-! ### The order of the waiting artifacts -/

namespace ChallengerSkillArtifact

variable (artifact other : ChallengerSkillArtifact)

end ChallengerSkillArtifact

namespace LearningEngine

variable {engine : LearningEngine} {state : ChallengerSkillState} {artifact other chosen : ChallengerSkillArtifact}

end LearningEngine

end SignalArcade.Challenger
