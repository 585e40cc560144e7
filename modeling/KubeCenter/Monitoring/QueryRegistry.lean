import Mathlib.Data.List.Basic

/-! The query templates of the registry. -/

namespace KubeCenter.Monitoring

structure QueryDef where
  slug : String
  template : String
  requiredVerbs : List String
  requiredGVR : String

def registry : List QueryDef :=
  [
    ⟨"pods/cpu",
      r#"sum(rate(container_cpu_usage_seconds_total{namespace="{{.Namespace}}",pod="{{.Name}}",container!=""}[5m]))"#,
      ["list"], "pods"⟩,
    ⟨"pods/memory",
      r#"sum(container_memory_working_set_bytes{namespace="{{.Namespace}}",pod="{{.Name}}",container!=""}) / 1024 / 1024"#,
      ["list"], "pods"⟩,
    ⟨"pods/network-rx",
      r#"sum(rate(container_network_receive_bytes_total{namespace="{{.Namespace}}",pod="{{.Name}}"}[5m])) / 1024"#,
      ["list"], "pods"⟩,
    ⟨"pods/network-tx",
      r#"sum(rate(container_network_transmit_bytes_total{namespace="{{.Namespace}}",pod="{{.Name}}"}[5m])) / 1024"#,
      ["list"], "pods"⟩,
    ⟨"pods/restarts",
      r#"sum(kube_pod_container_status_restarts_total{namespace="{{.Namespace}}",pod="{{.Name}}"})"#,
      ["list"], "pods"⟩,
    ⟨"pods/cilium-drops",
      r#"sum(rate(hubble_drop_total{reason="Policy denied",destination=~"{{.NamespaceRegex}}/{{.NameRegex}}"}[5m]))"#,
      ["list"], "pods"⟩,
    ⟨"deployments/cpu",
      r#"sum(rate(container_cpu_usage_seconds_total{namespace="{{.Namespace}}",pod=~"{{.NameRegex}}-.*",container!=""}[5m]))"#,
      ["list"], "deployments.apps"⟩,
    ⟨"deployments/memory",
      r#"sum(container_memory_working_set_bytes{namespace="{{.Namespace}}",pod=~"{{.NameRegex}}-.*",container!=""}) / 1024 / 1024"#,
      ["list"], "deployments.apps"⟩,
    ⟨"deployments/network-rx",
      r#"sum(rate(container_network_receive_bytes_total{namespace="{{.Namespace}}",pod=~"{{.NameRegex}}-.*"}[5m])) / 1024"#,
      ["list"], "deployments.apps"⟩,
    ⟨"deployments/network-tx",
      r#"sum(rate(container_network_transmit_bytes_total{namespace="{{.Namespace}}",pod=~"{{.NameRegex}}-.*"}[5m])) / 1024"#,
      ["list"], "deployments.apps"⟩,
    ⟨"deployments/replicas",
      r#"kube_deployment_status_replicas{namespace="{{.Namespace}}",deployment="{{.Name}}"}"#,
      ["list"], "deployments.apps"⟩,
    ⟨"deployments/replicas-unavailable",
      r#"kube_deployment_status_replicas_unavailable{namespace="{{.Namespace}}",deployment="{{.Name}}"}"#,
      ["list"], "deployments.apps"⟩,
    ⟨"deployments/cpu-request",
      r#"sum(kube_pod_container_resource_requests{namespace="{{.Namespace}}",pod=~"{{.NameRegex}}-.*",resource="cpu"})"#,
      ["list"], "deployments.apps"⟩,
    ⟨"deployments/memory-request",
      r#"sum(kube_pod_container_resource_requests{namespace="{{.Namespace}}",pod=~"{{.NameRegex}}-.*",resource="memory"}) / 1024 / 1024"#,
      ["list"], "deployments.apps"⟩,
    ⟨"statefulsets/cpu",
      r#"sum(rate(container_cpu_usage_seconds_total{namespace="{{.Namespace}}",pod=~"{{.NameRegex}}-.*",container!=""}[5m]))"#,
      ["list"], "statefulsets.apps"⟩,
    ⟨"statefulsets/memory",
      r#"sum(container_memory_working_set_bytes{namespace="{{.Namespace}}",pod=~"{{.NameRegex}}-.*",container!=""}) / 1024 / 1024"#,
      ["list"], "statefulsets.apps"⟩,
    ⟨"statefulsets/network-rx",
      r#"sum(rate(container_network_receive_bytes_total{namespace="{{.Namespace}}",pod=~"{{.NameRegex}}-.*"}[5m])) / 1024"#,
      ["list"], "statefulsets.apps"⟩,
    ⟨"statefulsets/network-tx",
      r#"sum(rate(container_network_transmit_bytes_total{namespace="{{.Namespace}}",pod=~"{{.NameRegex}}-.*"}[5m])) / 1024"#,
      ["list"], "statefulsets.apps"⟩,
    ⟨"statefulsets/replicas-ready",
      r#"kube_statefulset_status_replicas_ready{namespace="{{.Namespace}}",statefulset="{{.Name}}"}"#,
      ["list"], "statefulsets.apps"⟩,
    ⟨"statefulsets/cpu-request",
      r#"sum(kube_pod_container_resource_requests{namespace="{{.Namespace}}",pod=~"{{.NameRegex}}-.*",resource="cpu"})"#,
      ["list"], "statefulsets.apps"⟩,
    ⟨"statefulsets/memory-request",
      r#"sum(kube_pod_container_resource_requests{namespace="{{.Namespace}}",pod=~"{{.NameRegex}}-.*",resource="memory"}) / 1024 / 1024"#,
      ["list"], "statefulsets.apps"⟩,
    ⟨"daemonsets/cpu",
      r#"sum(rate(container_cpu_usage_seconds_total{namespace="{{.Namespace}}",pod=~"{{.NameRegex}}-.*",container!=""}[5m]))"#,
      ["list"], "daemonsets.apps"⟩,
    ⟨"daemonsets/memory",
      r#"sum(container_memory_working_set_bytes{namespace="{{.Namespace}}",pod=~"{{.NameRegex}}-.*",container!=""}) / 1024 / 1024"#,
      ["list"], "daemonsets.apps"⟩,
    ⟨"daemonsets/network-rx",
      r#"sum(rate(container_network_receive_bytes_total{namespace="{{.Namespace}}",pod=~"{{.NameRegex}}-.*"}[5m])) / 1024"#,
      ["list"], "daemonsets.apps"⟩,
    ⟨"daemonsets/ready",
      r#"kube_daemonset_status_number_ready{namespace="{{.Namespace}}",daemonset="{{.Name}}"}"#,
      ["list"], "daemonsets.apps"⟩,
    ⟨"daemonsets/cpu-request",
      r#"sum(kube_pod_container_resource_requests{namespace="{{.Namespace}}",pod=~"{{.NameRegex}}-.*",resource="cpu"})"#,
      ["list"], "daemonsets.apps"⟩,
    ⟨"daemonsets/memory-request",
      r#"sum(kube_pod_container_resource_requests{namespace="{{.Namespace}}",pod=~"{{.NameRegex}}-.*",resource="memory"}) / 1024 / 1024"#,
      ["list"], "daemonsets.apps"⟩,
    ⟨"nodes/cpu",
      r#"100 - (avg(rate(node_cpu_seconds_total{mode="idle",instance=~"{{.NameRegex}}"}[5m])) * 100)"#,
      ["list"], "nodes"⟩,
    ⟨"nodes/memory",
      r#"100 * (1 - node_memory_MemAvailable_bytes{instance=~"{{.NameRegex}}"} / node_memory_MemTotal_bytes{instance=~"{{.NameRegex}}"})"#,
      ["list"], "nodes"⟩,
    ⟨"nodes/load",
      r#"node_load5{instance=~"{{.NameRegex}}"}"#,
      ["list"], "nodes"⟩,
    ⟨"nodes/network-rx",
      r#"sum(rate(node_network_receive_bytes_total{instance=~"{{.NameRegex}}",device!~"veth.*|cali.*|lxc.*|cilium.*"}[5m])) / 1024 / 1024"#,
      ["list"], "nodes"⟩,
    ⟨"nodes/network-tx",
      r#"sum(rate(node_network_transmit_bytes_total{instance=~"{{.NameRegex}}",device!~"veth.*|cali.*|lxc.*|cilium.*"}[5m])) / 1024 / 1024"#,
      ["list"], "nodes"⟩,
    ⟨"nodes/disk-read",
      r#"sum(rate(node_disk_read_bytes_total{instance=~"{{.NameRegex}}"}[5m])) / 1024 / 1024"#,
      ["list"], "nodes"⟩,
    ⟨"nodes/disk-write",
      r#"sum(rate(node_disk_written_bytes_total{instance=~"{{.NameRegex}}"}[5m])) / 1024 / 1024"#,
      ["list"], "nodes"⟩,
    ⟨"nodes/info",
      r#"kube_node_info{node="{{.Name}}"}"#,
      ["list"], "nodes"⟩,
    ⟨"replicasets/cpu",
      r#"sum(rate(container_cpu_usage_seconds_total{namespace="{{.Namespace}}",pod=~"{{.NameRegex}}-.*",container!=""}[5m]))"#,
      ["list"], "replicasets.apps"⟩,
    ⟨"replicasets/memory",
      r#"sum(container_memory_working_set_bytes{namespace="{{.Namespace}}",pod=~"{{.NameRegex}}-.*",container!=""}) / 1024 / 1024"#,
      ["list"], "replicasets.apps"⟩,
    ⟨"jobs/cpu",
      r#"sum(rate(container_cpu_usage_seconds_total{namespace="{{.Namespace}}",pod=~"{{.NameRegex}}-.*",container!=""}[5m]))"#,
      ["list"], "jobs.batch"⟩,
    ⟨"jobs/memory",
      r#"sum(container_memory_working_set_bytes{namespace="{{.Namespace}}",pod=~"{{.NameRegex}}-.*",container!=""}) / 1024 / 1024"#,
      ["list"], "jobs.batch"⟩,
    ⟨"cronjobs/cpu",
      r#"sum(rate(container_cpu_usage_seconds_total{namespace="{{.Namespace}}",pod=~"{{.NameRegex}}-.*",container!=""}[5m]))"#,
      ["list"], "cronjobs.batch"⟩,
    ⟨"cronjobs/memory",
      r#"sum(container_memory_working_set_bytes{namespace="{{.Namespace}}",pod=~"{{.NameRegex}}-.*",container!=""}) / 1024 / 1024"#,
      ["list"], "cronjobs.batch"⟩,
    ⟨"namespaces/cpu",
      r#"sum(rate(container_cpu_usage_seconds_total{namespace="{{.Name}}",container!=""}[5m]))"#,
      ["list"], "pods"⟩,
    ⟨"namespaces/memory",
      r#"sum(container_memory_working_set_bytes{namespace="{{.Name}}",container!=""}) / 1024 / 1024"#,
      ["list"], "pods"⟩,
    ⟨"namespaces/network-rx",
      r#"sum(rate(container_network_receive_bytes_total{namespace="{{.Name}}"}[5m])) / 1024"#,
      ["list"], "pods"⟩,
    ⟨"namespaces/network-tx",
      r#"sum(rate(container_network_transmit_bytes_total{namespace="{{.Name}}"}[5m])) / 1024"#,
      ["list"], "pods"⟩,
    ⟨"namespaces/pod-count",
      r#"count(kube_pod_info{namespace="{{.Name}}"})"#,
      ["list"], "pods"⟩,
    ⟨"namespaces/cilium-drops",
      r#"sum(rate(hubble_drop_total{reason="Policy denied",destination=~"{{.NameRegex}}/.*"}[5m]))"#,
      ["list"], "pods"⟩,
    ⟨"pvcs/usage",
      r#"kubelet_volume_stats_used_bytes{namespace="{{.Namespace}}",persistentvolumeclaim="{{.Name}}"} / 1024 / 1024 / 1024"#,
      ["list"], "persistentvolumeclaims"⟩,
    ⟨"pvcs/capacity",
      r#"kubelet_volume_stats_capacity_bytes{namespace="{{.Namespace}}",persistentvolumeclaim="{{.Name}}"} / 1024 / 1024 / 1024"#,
      ["list"], "persistentvolumeclaims"⟩,
    ⟨"pvcs/inodes",
      r#"kubelet_volume_stats_inodes_used{namespace="{{.Namespace}}",persistentvolumeclaim="{{.Name}}"}"#,
      ["list"], "persistentvolumeclaims"⟩,
    ⟨"pvs/capacity",
      r#"kube_persistentvolume_capacity_bytes{persistentvolume="{{.Name}}"} / 1024 / 1024 / 1024"#,
      ["list"], "persistentvolumes"⟩,
    ⟨"pvs/phase",
      r#"kube_persistentvolume_status_phase{persistentvolume="{{.Name}}"}"#,
      ["list"], "persistentvolumes"⟩,
    ⟨"pvs/pvc-usage",
      r#"kubelet_volume_stats_used_bytes{persistentvolumeclaim=~".*"} * on(persistentvolumeclaim, namespace) group_left kube_persistentvolumeclaim_info{volumename="{{.Name}}"} / 1024 / 1024 / 1024"#,
      ["list"], "persistentvolumes"⟩,
    ⟨"pvs/pvc-inodes",
      r#"kubelet_volume_stats_inodes_used * on(persistentvolumeclaim, namespace) group_left kube_persistentvolumeclaim_info{volumename="{{.Name}}"}"#,
      ["list"], "persistentvolumes"⟩,
    ⟨"storageclasses/pv-count",
      r#"count(kube_persistentvolume_info{storageclass="{{.Name}}"})"#,
      ["list"], "storageclasses.storage.k8s.io"⟩,
    ⟨"storageclasses/pvc-count",
      r#"count(kube_persistentvolumeclaim_info{storageclass="{{.Name}}"})"#,
      ["list"], "storageclasses.storage.k8s.io"⟩,
    ⟨"storageclasses/provisioned",
      r#"sum(kube_persistentvolume_capacity_bytes{storageclass="{{.Name}}"}) / 1024 / 1024 / 1024"#,
      ["list"], "storageclasses.storage.k8s.io"⟩,
    ⟨"storageclasses/used",
      r#"sum(kubelet_volume_stats_used_bytes * on(persistentvolumeclaim, namespace) group_left(storageclass) kube_persistentvolumeclaim_info{storageclass="{{.Name}}"}) / 1024 / 1024 / 1024"#,
      ["list"], "storageclasses.storage.k8s.io"⟩,
    ⟨"hpas/current-replicas",
      r#"kube_horizontalpodautoscaler_status_current_replicas{namespace="{{.Namespace}}",horizontalpodautoscaler="{{.Name}}"}"#,
      ["list"], "horizontalpodautoscalers.autoscaling"⟩,
    ⟨"hpas/desired-replicas",
      r#"kube_horizontalpodautoscaler_status_desired_replicas{namespace="{{.Namespace}}",horizontalpodautoscaler="{{.Name}}"}"#,
      ["list"], "horizontalpodautoscalers.autoscaling"⟩,
    ⟨"ingresses/request-rate",
      r#"sum(rate(nginx_ingress_controller_requests{namespace="{{.Namespace}}",ingress="{{.Name}}"}[5m]))"#,
      ["list"], "ingresses.networking.k8s.io"⟩,
    ⟨"ingresses/error-rate",
      r#"sum(rate(nginx_ingress_controller_requests{namespace="{{.Namespace}}",ingress="{{.Name}}",status=~"5.."}[5m]))"#,
      ["list"], "ingresses.networking.k8s.io"⟩,
    ⟨"networkpolicies/cilium-forwarded",
      r#"sum(rate(hubble_flows_processed_total{verdict="FORWARDED",destination=~"{{.NamespaceRegex}}/.*"}[5m]))"#,
      ["list"], "networkpolicies.networking.k8s.io"⟩,
    ⟨"networkpolicies/cilium-dropped",
      r#"sum(rate(hubble_flows_processed_total{verdict="DROPPED",destination=~"{{.NamespaceRegex}}/.*"}[5m]))"#,
      ["list"], "networkpolicies.networking.k8s.io"⟩,
    ⟨"networkpolicies/policy-denied",
      r#"sum(rate(hubble_drop_total{reason="Policy denied",destination=~"{{.NamespaceRegex}}/.*"}[5m]))"#,
      ["list"], "networkpolicies.networking.k8s.io"⟩,
    ⟨"networkpolicies/tcp-syn",
      r#"sum(rate(hubble_tcp_flags_total{flag="SYN",destination=~"{{.NamespaceRegex}}/.*"}[5m]))"#,
      ["list"], "networkpolicies.networking.k8s.io"⟩,
    ⟨"ciliumnetworkpolicies/cilium-forwarded",
      r#"sum(rate(hubble_flows_processed_total{verdict="FORWARDED",destination=~"{{.NamespaceRegex}}/.*"}[5m]))"#,
      ["list"], "ciliumnetworkpolicies.cilium.io"⟩,
    ⟨"ciliumnetworkpolicies/cilium-dropped",
      r#"sum(rate(hubble_flows_processed_total{verdict="DROPPED",destination=~"{{.NamespaceRegex}}/.*"}[5m]))"#,
      ["list"], "ciliumnetworkpolicies.cilium.io"⟩,
    ⟨"ciliumnetworkpolicies/policy-denied",
      r#"sum(rate(hubble_drop_total{reason="Policy denied",destination=~"{{.NamespaceRegex}}/.*"}[5m]))"#,
      ["list"], "ciliumnetworkpolicies.cilium.io"⟩,
    ⟨"ciliumnetworkpolicies/policy-verdicts",
      r#"sum(rate(hubble_policy_verdict_total{destination=~"{{.NamespaceRegex}}/.*"}[5m])) by (action)"#,
      ["list"], "ciliumnetworkpolicies.cilium.io"⟩,
    ⟨"pdbs/current-healthy",
      r#"kube_poddisruptionbudget_status_current_healthy{namespace="{{.Namespace}}",poddisruptionbudget="{{.Name}}"}"#,
      ["list"], "poddisruptionbudgets.policy"⟩,
    ⟨"pdbs/desired-healthy",
      r#"kube_poddisruptionbudget_status_desired_healthy{namespace="{{.Namespace}}",poddisruptionbudget="{{.Name}}"}"#,
      ["list"], "poddisruptionbudgets.policy"⟩,
    ⟨"pdbs/disruptions-allowed",
      r#"kube_poddisruptionbudget_status_pod_disruptions_allowed{namespace="{{.Namespace}}",poddisruptionbudget="{{.Name}}"}"#,
      ["list"], "poddisruptionbudgets.policy"⟩,
    ⟨"pdbs/expected-pods",
      r#"kube_poddisruptionbudget_status_expected_pods{namespace="{{.Namespace}}",poddisruptionbudget="{{.Name}}"}"#,
      ["list"], "poddisruptionbudgets.policy"⟩,
    ⟨"resourcequotas/cpu-used",
      r#"kube_resourcequota{namespace="{{.Namespace}}",resourcequota="{{.Name}}",resource="requests.cpu",type="used"}"#,
      ["list"], "resourcequotas"⟩,
    ⟨"resourcequotas/cpu-hard",
      r#"kube_resourcequota{namespace="{{.Namespace}}",resourcequota="{{.Name}}",resource="requests.cpu",type="hard"}"#,
      ["list"], "resourcequotas"⟩,
    ⟨"resourcequotas/memory-used",
      r#"kube_resourcequota{namespace="{{.Namespace}}",resourcequota="{{.Name}}",resource="requests.memory",type="used"} / 1024 / 1024"#,
      ["list"], "resourcequotas"⟩,
    ⟨"resourcequotas/memory-hard",
      r#"kube_resourcequota{namespace="{{.Namespace}}",resourcequota="{{.Name}}",resource="requests.memory",type="hard"} / 1024 / 1024"#,
      ["list"], "resourcequotas"⟩,
    ⟨"resourcequotas/pods-used",
      r#"kube_resourcequota{namespace="{{.Namespace}}",resourcequota="{{.Name}}",resource="pods",type="used"}"#,
      ["list"], "resourcequotas"⟩,
    ⟨"resourcequotas/pods-hard",
      r#"kube_resourcequota{namespace="{{.Namespace}}",resourcequota="{{.Name}}",resource="pods",type="hard"}"#,
      ["list"], "resourcequotas"⟩,
    ⟨"limitranges/cpu-default",
      r#"kube_limitrange{namespace="{{.Namespace}}",limitrange="{{.Name}}",resource="cpu",type="Container",constraint="default"}"#,
      ["list"], "limitranges"⟩,
    ⟨"limitranges/memory-default",
      r#"kube_limitrange{namespace="{{.Namespace}}",limitrange="{{.Name}}",resource="memory",type="Container",constraint="default"} / 1024 / 1024"#,
      ["list"], "limitranges"⟩,
    ⟨"limitranges/cpu-min",
      r#"kube_limitrange{namespace="{{.Namespace}}",limitrange="{{.Name}}",resource="cpu",type="Container",constraint="min"}"#,
      ["list"], "limitranges"⟩,
    ⟨"limitranges/cpu-max",
      r#"kube_limitrange{namespace="{{.Namespace}}",limitrange="{{.Name}}",resource="cpu",type="Container",constraint="max"}"#,
      ["list"], "limitranges"⟩,
    ⟨"limitranges/memory-min",
      r#"kube_limitrange{namespace="{{.Namespace}}",limitrange="{{.Name}}",resource="memory",type="Container",constraint="min"} / 1024 / 1024"#,
      ["list"], "limitranges"⟩,
    ⟨"limitranges/memory-max",
      r#"kube_limitrange{namespace="{{.Namespace}}",limitrange="{{.Name}}",resource="memory",type="Container",constraint="max"} / 1024 / 1024"#,
      ["list"], "limitranges"⟩,
    ⟨"endpoints/available",
      r#"kube_endpoint_address_available{namespace="{{.Namespace}}",endpoint="{{.Name}}"}"#,
      ["list"], "endpoints"⟩,
    ⟨"endpoints/not-ready",
      r#"kube_endpoint_address_not_ready{namespace="{{.Namespace}}",endpoint="{{.Name}}"}"#,
      ["list"], "endpoints"⟩,
    ⟨"endpointslices/ready",
      r#"kube_endpointslice_endpoints{namespace="{{.Namespace}}",endpointslice="{{.Name}}",ready="true"}"#,
      ["list"], "endpointslices.discovery.k8s.io"⟩,
    ⟨"endpointslices/serving",
      r#"kube_endpointslice_endpoints{namespace="{{.Namespace}}",endpointslice="{{.Name}}",serving="true"}"#,
      ["list"], "endpointslices.discovery.k8s.io"⟩,
    ⟨"endpointslices/terminating",
      r#"kube_endpointslice_endpoints{namespace="{{.Namespace}}",endpointslice="{{.Name}}",terminating="true"}"#,
      ["list"], "endpointslices.discovery.k8s.io"⟩,
    ⟨"validatingwebhookconfigurations/latency-p99",
      r#"histogram_quantile(0.99, sum(rate(apiserver_admission_webhook_admission_duration_seconds_bucket{name="{{.Name}}",type="validating"}[5m])) by (le)) * 1000"#,
      ["list"], "validatingwebhookconfigurations.admissionregistration.k8s.io"⟩,
    ⟨"validatingwebhookconfigurations/request-rate",
      r#"sum(rate(apiserver_admission_webhook_request_total{name="{{.Name}}",type="validating"}[5m]))"#,
      ["list"], "validatingwebhookconfigurations.admissionregistration.k8s.io"⟩,
    ⟨"validatingwebhookconfigurations/rejection-rate",
      r#"sum(rate(apiserver_admission_webhook_request_total{name="{{.Name}}",type="validating",rejected="true"}[5m]))"#,
      ["list"], "validatingwebhookconfigurations.admissionregistration.k8s.io"⟩,
    ⟨"mutatingwebhookconfigurations/latency-p99",
      r#"histogram_quantile(0.99, sum(rate(apiserver_admission_webhook_admission_duration_seconds_bucket{name="{{.Name}}",type="mutating"}[5m])) by (le)) * 1000"#,
      ["list"], "mutatingwebhookconfigurations.admissionregistration.k8s.io"⟩,
    ⟨"mutatingwebhookconfigurations/request-rate",
      r#"sum(rate(apiserver_admission_webhook_request_total{name="{{.Name}}",type="mutating"}[5m]))"#,
      ["list"], "mutatingwebhookconfigurations.admissionregistration.k8s.io"⟩,
    ⟨"mutatingwebhookconfigurations/rejection-rate",
      r#"sum(rate(apiserver_admission_webhook_request_total{name="{{.Name}}",type="mutating",rejected="true"}[5m]))"#,
      ["list"], "mutatingwebhookconfigurations.admissionregistration.k8s.io"⟩,
    ⟨"services/endpoint-cpu",
      r#"sum(rate(container_cpu_usage_seconds_total{namespace="{{.Namespace}}",pod=~"{{.NameRegex}}.*",container!=""}[5m])) by (pod)"#,
      ["list"], "services"⟩
  ]

def clusterScopedGVRs : List String :=
  ["nodes", "persistentvolumes", "storageclasses.storage.k8s.io",
    "validatingwebhookconfigurations.admissionregistration.k8s.io",
    "mutatingwebhookconfigurations.admissionregistration.k8s.io"]

end KubeCenter.Monitoring
