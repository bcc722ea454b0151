import CastHub.Main
import CastHub.Proofs.Address
import CastHub.Proofs.Advance
import CastHub.Proofs.Attachment
import CastHub.Proofs.Completion
import CastHub.Proofs.Compound
import CastHub.Proofs.Conversation
import CastHub.Proofs.Demise
import CastHub.Proofs.Destruction
import CastHub.Proofs.Eras
import CastHub.Proofs.Evasion
import CastHub.Proofs.EventSpelling
import CastHub.Proofs.Failure
import CastHub.Proofs.Framing
import CastHub.Proofs.Grammar
import CastHub.Proofs.Handles
import CastHub.Proofs.Isolation
import CastHub.Proofs.Lengths
import CastHub.Proofs.Lifetime
import CastHub.Proofs.Losses
import CastHub.Proofs.MediaStatus
import CastHub.Proofs.MostRecent
import CastHub.Proofs.Notices
import CastHub.Proofs.Observers
import CastHub.Proofs.Overlay
import CastHub.Proofs.Quotas
import CastHub.Proofs.Races
import CastHub.Proofs.Reach
import CastHub.Proofs.Recipients
import CastHub.Proofs.Reordering
import CastHub.Proofs.Setup
import CastHub.Proofs.Spelling
import CastHub.Proofs.Stranding
import CastHub.Proofs.Teardown
import CastHub.Rehearsal.Hub
import CastHub.Service.Lines
