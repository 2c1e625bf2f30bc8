import MqttNativeSocket.Protocol.PublishBody
import MqttNativeSocket.Protocol.SubscribeCodec
import MqttNativeSocket.Protocol.Consistency
import MqttNativeSocket.Protocol.Stopping
import MqttNativeSocket.Transport.Delivery
import MqttNativeSocket.Topic.Matching
import MqttNativeSocket.Topic.Instances
import MqttNativeSocket.Config.BrokerUrls
import MqttNativeSocket.Client.SilentBroker
import MqttNativeSocket.Client.Backoff
import MqttNativeSocket.Client.RetryBudget
import MqttNativeSocket.Client.FirstPacket
import MqttNativeSocket.Client.Operations
import MqttNativeSocket.Client.Ownership
import MqttNativeSocket.Client.Wire
import MqttNativeSocket.Client.Progress
import MqttNativeSocket.Client.Attendance
import MqttNativeSocket.Client.Readers
import MqttNativeSocket.Client.Lifetime
import MqttNativeSocket.Client.Security
import MqttNativeSocket.Client.Termination
import MqttNativeSocket.Client.Exchange
import MqttNativeSocket.Client.Keepalive
import MqttNativeSocket.Publisher.Callbacks
import MqttNativeSocket.Publisher.Pairing
import MqttNativeSocket.Publisher.Waiting
import MqttNativeSocket.Publisher.Broker
import MqttNativeSocket.Publisher.Locking
import MqttNativeSocket.Subscriber.Callbacks
import MqttNativeSocket.Subscriber.Dispatch
import MqttNativeSocket.Subscriber.Locking
import MqttNativeSocket.Subscriber.Verdicts
import MqttNativeSocket.Foundations.Runs
