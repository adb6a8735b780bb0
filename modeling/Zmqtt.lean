import Zmqtt.AckAttribution
import Zmqtt.BrokerTopics
import Zmqtt.ClientSession
import Zmqtt.ConnectionRecovery
import Zmqtt.Decorators
import Zmqtt.DetachmentSurvives
import Zmqtt.ExitedSubscriptions
import Zmqtt.GetMessage
import Zmqtt.GuardLocks
import Zmqtt.LeastFreeId
import Zmqtt.LimitViolation
import Zmqtt.LiveFlows
import Zmqtt.ManualAcks
import Zmqtt.OutboundHandshake
import Zmqtt.PingWaiters
import Zmqtt.QueueOrder
import Zmqtt.ReadLoop
import Zmqtt.ReceiveQuota
import Zmqtt.Reencode
import Zmqtt.ReplayClear
import Zmqtt.ReplayOrder
import Zmqtt.ReplyRouting
import Zmqtt.RequestReply
import Zmqtt.ResponseObservers
import Zmqtt.Resubscription
import Zmqtt.ResumedFlows
import Zmqtt.RunExit
import Zmqtt.SessionStream
import Zmqtt.SizeLimit
import Zmqtt.SubscribeRollback
import Zmqtt.Varint
