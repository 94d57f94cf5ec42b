import Fieldbus.Signal
import Fieldbus.Network.Workers
import Fieldbus.Proofs.Ranks
import Fieldbus.Proofs.Steps
import Fieldbus.Proofs.Load
import Fieldbus.Proofs.Termination
import Fieldbus.Proofs.Wiring
import Fieldbus.Proofs.Records
import Fieldbus.Proofs.Confluence
import Fieldbus.Proofs.Service
import Fieldbus.Proofs.Exchange
import Fieldbus.Proofs.Segments
import Fieldbus.Proofs.Broadcast
import Fieldbus.Proofs.Extents
import Fieldbus.Proofs.Reachable
import Fieldbus.Proofs.Announcements
import Fieldbus.Proofs.Calls
import Fieldbus.Proofs.SplitHorizon
import Fieldbus.Proofs.Histories
import Fieldbus.Proofs.SegmentNumbers
import Fieldbus.Proofs.Transports
import Fieldbus.Proofs.Waiting
import Fieldbus.Proofs.LearnedRouters
import Fieldbus.Proofs.Assertions
import Fieldbus.Proofs.Acceptance
import Fieldbus.Proofs.Registrations
import Fieldbus.Proofs.Requests
import Fieldbus.Proofs.Chores
import Fieldbus.Proofs.Work
import Fieldbus.Proofs.Deliveries
import Fieldbus.Proofs.Journeys
import Fieldbus.Proofs.Conversations
import Fieldbus.Proofs.Executors
import Fieldbus.Proofs.Breakdowns
import Fieldbus.Proofs.Carriage
import Fieldbus.Proofs.Inquiries
import Fieldbus.Proofs.Interchange
import Fieldbus.Proofs.Workplaces
import Fieldbus.Proofs.Fates
import Fieldbus.Proofs.Forwarding
import Fieldbus.Proofs.Echoes
import Fieldbus.Proofs.Balance
import Fieldbus.Proofs.Tallies
import Fieldbus.Proofs.Chronicles
import Fieldbus.Proofs.Occupancy
import Fieldbus.Proofs.Surveys
import Fieldbus.Proofs.FailedSends
import Fieldbus.Proofs.Bodies
import Fieldbus.Proofs.Addressees
import Fieldbus.Proofs.Queries
import Fieldbus.Proofs.NumberQueries
