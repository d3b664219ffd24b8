import Audr.Records
import Audr.Lib.Transition
import Audr.Lib.Accounts
import Audr.Lib.Batching
import Audr.Pipeline.Books
import Audr.Pipeline.Halting
import Audr.Pipeline.Conservation
import Audr.Pipeline.Batches
import Audr.Pipeline.Progress
import Audr.Pipeline.Reports
import Audr.PyPipeline.Arrivals
import Audr.PyPipeline.Books
import Audr.NemoRelay.Lineage
import Audr.OpenRouter.Stream
import Audr.Chargebee.Agreement
import Audr.Lago.Response
import Audr.Lago.Requests
import Audr.Lago.Outcomes
import Audr.Lago.Validation
import Audr.Lago.Partition
import Audr.Lago.Flatten
import Audr.JsRecord.Encoding
import Audr.JsRecord.Conformance
import Audr.Chargebee.Sending
import Audr.PyPipeline.Draining
import Audr.PyPipeline.Client
import Audr.Bridge.Delivery
import Audr.VercelAi.Runs
import Audr.Mastra.Metering
import Audr.Chargebee.Origins
import Audr.JsRecord.Disclosure
import Audr.MergeGateway.Metering
import Audr.Record.RoundTrip
