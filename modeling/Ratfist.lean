import Ratfist.StreamOutcomes
import Ratfist.NullTokens
import Ratfist.NumberFields
import Ratfist.ChecksumTest
import Ratfist.LengthLimits
import Ratfist.QueueScan
import Ratfist.TransmitQueue
import Ratfist.TransmitDrains
import Ratfist.NullCallbacks
import Ratfist.Serializers
import Ratfist.PlanReadBack
import Ratfist.SpinnerBounds
import Ratfist.Runs
import Ratfist.BitFields
import Ratfist.Gpio
import Ratfist.Stm32f411
import Ratfist.Ledger
import Ratfist.QueueLog
import Ratfist.Exchange
import Ratfist.SpinnerPools
import Ratfist.SpinnerSystem
import Ratfist.SpinnerConservation
import Ratfist.SpinnerReplies
import Ratfist.SpinnerReceive
import Ratfist.SpinnerReuse
import Ratfist.MeteoPools
import Ratfist.MeteoSystem
import Ratfist.MeteoConservation
import Ratfist.MeteoReplies
import Ratfist.Transmit
import Ratfist.I2cTransaction
import Ratfist.I2cOwnership
import Ratfist.I2cResidue
import Ratfist.I2cProgress
import Ratfist.UsartInterrupts
import Ratfist.HalfSteps
import Ratfist.StepperPosition
import Ratfist.ErrorDetection
import Ratfist.OutgoingFrames
import Ratfist.SetPlanParsing
import Ratfist.LightSensor
import Ratfist.Compensation
import Ratfist.SensorLimits
import Ratfist.Datasheet
import Ratfist.StepperRate
import Ratfist.StopPosition
import Ratfist.MeteoAllocation
import Ratfist.LightLevel
import Ratfist.I2cArguments
import Ratfist.FieldText
import Ratfist.SentLine
import Ratfist.ReceivedStream
import Ratfist.RequestParsing
import Ratfist.RequestRoundTrip
import Ratfist.EchoedLine
import Ratfist.SpinnerWorker
import Ratfist.TransmitRoom
import Ratfist.ClientView
import Ratfist.Conversation
import Ratfist.StopRuns
import Ratfist.UartChannel
import Ratfist.DispatcherLife
import Ratfist.I2cPins
import Ratfist.MessageReading
import Ratfist.Network
import Ratfist.NetworkMemory
import Ratfist.Pipeline
