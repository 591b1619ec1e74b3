import TeslatlasSdk.Events.SseRefinement
import TeslatlasSdk.Events.SseAcknowledgement
import TeslatlasSdk.Events.SseResumeHeader
import TeslatlasSdk.Http.NumericLexemes
import TeslatlasSdk.Events.ProtocolDeliveries
import TeslatlasSdk.Client.Pagination
import TeslatlasSdk.Client.Writes
import TeslatlasSdk.Hub.Validate
import TeslatlasSdk.Hub.SessionIsolation
import TeslatlasSdk.Hub.CredentialStore
import TeslatlasSdk.Hub.SharedDiscovery
import TeslatlasSdk.Hub.SessionRequests
import TeslatlasSdk.Hub.DrivesReads
import TeslatlasSdk.Core.ProgramLogic
import TeslatlasSdk.Scripts.SyncRestart
import TeslatlasSdk.Client.RequestTargets
import TeslatlasSdk.Protocol.Negotiation
import TeslatlasSdk.Scripts.SemanticSnapshot
import TeslatlasSdk.Scripts.SourceCatalogue
import TeslatlasSdk.Scripts.StrictJsonAccepts
import TeslatlasSdk.Scripts.TarFields
import TeslatlasSdk.Http.BodyProgram
import TeslatlasSdk.Commands.AdvertisedCommand
import TeslatlasSdk.Events.SseReconnect
import TeslatlasSdk.Core.SemanticVersion
import TeslatlasSdk.Http.BodyLaws
import TeslatlasSdk.Http.RequestLaws
import TeslatlasSdk.Client.ResultIdentity
import TeslatlasSdk.Client.ResponseResults
import TeslatlasSdk.Client.Submissions
import TeslatlasSdk.Scripts.PythonStrings
import TeslatlasSdk.Scripts.ProfileRuns
