import Commonwake.Orientation
import Commonwake.EquivocationSoundness
import Commonwake.LogVerification
import Commonwake.TamperEvidence
import Commonwake.AuthorityReplay
import Commonwake.PayloadRoundTrip
import Commonwake.StoryForest
import Commonwake.Continuity
import Commonwake.ReplaySafety
import Commonwake.AuthorityMirror
import Commonwake.Commitments
import Commonwake.ImportWindows
import Commonwake.CommonsConvergence
import Commonwake.PublicationSoundness
import Commonwake.CanonicalForms
import Commonwake.Network
import Commonwake.ForgeRecords
import Commonwake.ExportVerification
import Commonwake.VolunteerEvidence
import Commonwake.RoutedTargets
import Commonwake.StoredInstants
import Commonwake.ObservationLog
import Commonwake.EdgeQuotas
import Commonwake.TopicPaging
import Commonwake.StoryChanges
import Commonwake.RateWindows
import Commonwake.VolunteerGateway
import Commonwake.OwnPages
import Commonwake.LogImportability
import Commonwake.PeerSynchronization
import Commonwake.CatchingUp
import Commonwake.Dissemination
import Commonwake.Exporting
