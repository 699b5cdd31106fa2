import TopicDirectory.Main
import TopicDirectory.Proofs.Directory.Canonical
import TopicDirectory.Proofs.Directory.Emissions
import TopicDirectory.Proofs.Directory.Prefixes
import TopicDirectory.Proofs.Directory.Tenure
import TopicDirectory.Proofs.Directory.Truth
import TopicDirectory.Proofs.Endpoint.Grammar
import TopicDirectory.Proofs.Exchange.Dialogue
import TopicDirectory.Proofs.Feed.Delivery
import TopicDirectory.Proofs.Feed.Relay
import TopicDirectory.Proofs.Link.Cuts
import TopicDirectory.Proofs.Link.Limits
import TopicDirectory.Proofs.Observer.Convergence
import TopicDirectory.Proofs.Observer.Lifecycle
import TopicDirectory.Proofs.Observer.Maxima
import TopicDirectory.Proofs.Publisher.Lifecycle
import TopicDirectory.Proofs.Publisher.Recorded
import TopicDirectory.Proofs.Reception.Intake
import TopicDirectory.Proofs.Registry.Endpoints
import TopicDirectory.Proofs.Service.Linearizable
import TopicDirectory.Proofs.Subscriber.Delivery
import TopicDirectory.Proofs.Wire.BodyFirst
import TopicDirectory.Proofs.Wire.Tolerance
import TopicDirectory.Scenario.Raw
import TopicDirectory.Proofs.Config.Saved
import TopicDirectory.Proofs.Directory.Listing
import TopicDirectory.Proofs.Watch.Follow
import TopicDirectory.Proofs.Watch.Pursuit
import TopicDirectory.Proofs.Directory.Airing
import TopicDirectory.Proofs.Directory.Observers
